import FeedQuery.Proofs.Store.Faults
import FeedQuery.Service

/-!
What reading does to a store: the log stays, and accesses are added to those made before. The
fetches of a stream are all for its own predicate and page size.
-/
namespace FeedQuery

namespace Store

/-- The accesses made to a store between two states of it, all of some kind. -/
def Made (P : Access → Prop) (s t : Store) : Prop :=
  ∃ made, t.accesses = made ++ s.accesses ∧ ∀ a ∈ made, P a

/-- A store after some reads. -/
structure Reads (P : Access → Prop) (s t : Store) : Prop where
  log : t.log = s.log
  made : Made P s t

variable {P : Access → Prop} {s t u : Store}

theorem Made.of_accesses_eq (h : t.accesses = s.accesses) : Made P s t := ⟨[], h, nofun⟩

theorem Made.trans (h : Made P s t) (h' : Made P t u) : Made P s u := by
  obtain ⟨made, hmade, hP⟩ := h
  obtain ⟨made', hmade', hP'⟩ := h'
  refine ⟨made' ++ made, ?_, ?_⟩
  · rw [hmade', hmade, List.append_assoc]
  · exact List.forall_mem_append.2 ⟨hP', hP⟩

namespace Reads

theorem refl (P : Access → Prop) (s : Store) : Reads P s s := ⟨rfl, .of_accesses_eq rfl⟩

theorem trans (h : Reads P s t) (h' : Reads P t u) : Reads P s u :=
  ⟨h'.log.trans h.log, h.made.trans h'.made⟩

theorem imp {Q : Access → Prop} (h : Reads P s t) (hPQ : ∀ a, P a → Q a) : Reads Q s t := by
  obtain ⟨hlog, made, hmade, hP⟩ := h
  exact ⟨hlog, made, hmade, fun a ha => hPQ a (hP a ha)⟩

theorem record {a : Access} (h : P a) (s : Store) : Reads P s (s.record a) :=
  ⟨rfl, [a], rfl, by simpa using h⟩

end Reads

end Store

open Store

/-- The fetches that a stream may make are all of some kind. -/
def PageStream.Asks (P : Access → Prop) (s : PageStream) : Prop :=
  ∀ cursor, P (.fetch s.predicate s.size cursor)

variable {P : Access → Prop}

namespace PageStream

/-- A poll only reads, and leaves a stream that asks for what it asked for before. -/
theorem reads_of_next {s t : PageStream} {store store' : Store} {answer : Poll (List Message)}
    (h : s.Asks P) (hnext : s.next store = (answer, t, store')) :
    store.Reads P store' ∧ t.Asks P := by
  have hseek := next_eq_seek s store
  cases hc : s.cursor? with
  | none =>
    rw [next_of_none hc] at hnext
    cases hnext
    exact ⟨.refl P store, h⟩
  | some cursor =>
    have hstore := store_next_of_some hc store
    rw [hnext] at hseek hstore
    rw [show t = s.seek t.cursor? from hseek, show store' = _ from hstore]
    exact ⟨.record (h cursor) store, h⟩

theorem reads_drain {s : PageStream} (h : s.Asks P) (store : Store) :
    store.Reads P (s.drain store).2 := by
  -- On the fetches that are still to make.
  induction hn : s.remaining store using Nat.strongRecOn generalizing s store with
  | ind n ih =>
    rw [drain_eq]
    rcases hnext : s.next store with ⟨rows | _ | e, t, store'⟩
    all_goals obtain ⟨hreads, hasks⟩ := reads_of_next h hnext
    · have hlt : t.remaining store' < n := hn ▸ remaining_next hnext
      exact hreads.trans (ih _ hlt hasks store' rfl)
    · exact hreads
    · exact hreads

end PageStream

namespace RecordStream

theorem reads_next {s : RecordStream} (h : s.pages.Asks P) (store : Store) :
    store.Reads P (s.next store).2.2 ∧ (s.next store).2.1.pages.Asks P := by
  fun_induction next s store with
  | case1 s store m ms hbuffer => exact ⟨.refl P store, h⟩
  | case2 s store hbuffer pages store' hnext => exact PageStream.reads_of_next h hnext
  | case3 s store hbuffer e pages store' hnext => exact PageStream.reads_of_next h hnext
  | case4 s store hbuffer m ms pages store' hnext => exact PageStream.reads_of_next h hnext
  | case5 s store hbuffer pages store' hnext ih =>
    obtain ⟨hreads, hasks⟩ := PageStream.reads_of_next h hnext
    obtain ⟨hreads', hasks'⟩ := ih hasks
    exact ⟨hreads.trans hreads', hasks'⟩

end RecordStream

/-- Reading page by page makes fetches of the given size, reading at once makes none. -/
theorem Store.reads_run {p : Predicate} {size? : Option PageSize} (hquery : P (.query p))
    (hfetch : ∀ size ∈ size?, ∀ cursor, P (.fetch p size cursor)) (s : Store) :
    s.Reads P (s.run p size?).2 := by
  cases size? with
  | none => exact .record hquery s
  | some size => exact PageStream.reads_drain (s := .start p size) (hfetch size rfl) s

end FeedQuery
