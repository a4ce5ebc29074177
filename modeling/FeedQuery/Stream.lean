import FeedQuery.Store

/-!
Lazy streams over a store: page by page, or record by record. A fetch is made only when a stream is
asked for its next item and needs one. After a failure a stream is done.
-/
namespace FeedQuery

/-- The answer of a stream that is asked for its next item. -/
inductive Poll (α : Type) where
  | item (a : α)
  | done
  | failed (e : StoreError)

/-- Pages of a predicate from a cursor on; no cursor means there is nothing more to fetch. -/
structure PageStream where
  predicate : Predicate
  size : PageSize
  cursor? : Option Cursor

namespace PageStream

/-- A stream from the start of the log. -/
def start (p : Predicate) (size : PageSize) : PageStream := ⟨p, size, some .start⟩

def seek (s : PageStream) (cursor? : Option Cursor) : PageStream := ⟨s.predicate, s.size, cursor?⟩

def next (s : PageStream) (store : Store) : Poll (List Message) × PageStream × Store :=
  match s.cursor? with
  | none => (.done, s, store)
  | some cursor =>
    match store.fetch s.predicate s.size cursor with
    | (.error e, store) => (.failed e, s.seek none, store)
    | (.ok page, store) =>
      (.item page.rows, s.seek (if page.isLast then none else page.next?), store)

/-- A bound on the fetches that a stream still makes while nothing is appended. -/
def remaining (s : PageStream) (store : Store) : Nat :=
  match s.cursor? with
  | none => 0
  | some cursor => store.log.length - cursor.position + 1

theorem remaining_next {s t : PageStream} {store store' : Store} {rows : List Message}
    (h : s.next store = (.item rows, t, store')) : t.remaining store' < s.remaining store := by
  unfold next at h
  split at h
  · simp at h
  · rename_i cursor hc
    simp only [Store.fetch] at h
    split at h
    · simp at h
    · rename_i page store'' hf
      simp only [Prod.mk.injEq] at hf h
      obtain ⟨-, rfl, rfl⟩ := h
      obtain ⟨hf, rfl⟩ := hf
      simp only [remaining, hc, seek]
      split at hf
      · cases hf
      · split
        · simp
        · rename_i next hn
          have hl : page.isLast = false := by
            cases hp : page.isLast <;> simp_all
          obtain ⟨n, hnext, hlt, hlen⟩ := Log.next_of_fetch hf hl
          simp only [hl, hnext, Bool.false_eq_true, ↓reduceIte, Option.some.injEq] at hn
          subst hn
          simp only [Store.log_record, Cursor.position_offset]
          omega

/-- Fetches all pages that are left. The first failure discards what was fetched. -/
def drain (s : PageStream) (store : Store) : Except StoreError (List Message) × Store :=
  match _h : s.next store with
  | (.done, _, store) => (.ok [], store)
  | (.failed e, _, store) => (.error e, store)
  | (.item rows, s, store) =>
    let (rest, store) := s.drain store
    (rest.map (rows ++ ·), store)
termination_by s.remaining store
decreasing_by exact remaining_next _h

end PageStream

/-- Records of pages, one by one; the buffer holds what is left of the page fetched last. -/
structure RecordStream where
  pages : PageStream
  buffer : List Message

namespace RecordStream

def start (p : Predicate) (size : PageSize) : RecordStream := ⟨.start p size, []⟩

/-- The next record; empty pages are passed over. -/
def next (s : RecordStream) (store : Store) : Poll Message × RecordStream × Store :=
  match s.buffer with
  | m :: ms => (.item m, ⟨s.pages, ms⟩, store)
  | [] =>
    match _h : s.pages.next store with
    | (.done, pages, store) => (.done, ⟨pages, []⟩, store)
    | (.failed e, pages, store) => (.failed e, ⟨pages, []⟩, store)
    | (.item (m :: ms), pages, store) => (.item m, ⟨pages, ms⟩, store)
    | (.item [], pages, store) => next ⟨pages, []⟩ store
termination_by s.pages.remaining store
decreasing_by exact PageStream.remaining_next _h

/-- All records that are left. The first failure discards them. -/
def drain (s : RecordStream) (store : Store) : Except StoreError (List Message) × Store :=
  let (rest, store) := s.pages.drain store
  (rest.map (s.buffer ++ ·), store)

end RecordStream

namespace Store

/-- Runs a predicate: at once, or page by page to the end when a page size is given. -/
def run (s : Store) (p : Predicate) : Option PageSize → Except StoreError (List Message) × Store
  | none =>
    let (rows, s) := s.query p
    (.ok rows, s)
  | some size => (PageStream.start p size).drain s

end Store

end FeedQuery
