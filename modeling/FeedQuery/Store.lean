import FeedQuery.Log

/-!
A message store: a log that remembers the accesses made to it and may fail one of its fetches.
-/
namespace FeedQuery

/-- A read access to a store. -/
inductive Access where
  | query (p : Predicate)
  | fetch (p : Predicate) (size : PageSize) (cursor : Cursor)

def Access.isFetch : Access → Bool
  | .query _ => false
  | .fetch _ _ _ => true

/-- A store over a log. The fetch with the given number, counted from zero, fails. -/
structure Store where
  log : Log
  failAt? : Option Nat
  /-- The accesses so far, the latest first. -/
  accesses : List Access

namespace Store

/-- A store that never fails of itself. -/
def ofLog (l : Log) : Store := ⟨l, none, []⟩

def fetches (s : Store) : Nat := s.accesses.countP Access.isFetch

def record (s : Store) (a : Access) : Store := ⟨s.log, s.failAt?, a :: s.accesses⟩

def append (s : Store) (m : Message) : Store := ⟨s.log.append m, s.failAt?, s.accesses⟩

def query (s : Store) (p : Predicate) : List Message × Store := (s.log.query p, s.record (.query p))

def fetch (s : Store) (p : Predicate) (size : PageSize) (cursor : Cursor) :
    Except StoreError Page × Store :=
  (if s.failAt? = some s.fetches then .error (.fetch cursor "connection reset")
    else s.log.fetch p size cursor, s.record (.fetch p size cursor))

@[simp] theorem log_record (s : Store) (a : Access) : (s.record a).log = s.log := rfl

@[simp] theorem log_query (s : Store) (p : Predicate) : (s.query p).2.log = s.log := rfl

@[simp] theorem log_fetch (s : Store) (p : Predicate) (size : PageSize) (cursor : Cursor) :
    (s.fetch p size cursor).2.log = s.log := rfl

end Store

end FeedQuery
