import FeedQuery.Proofs.Store.Drain

/-!
Readers of a log that grows while they read. A reader asks its stream for one page after the other;
what it was given is what matches before the place that it has come to.
-/
namespace FeedQuery

/-- The client of a page stream, or a paginated query on its way through its pages. -/
structure Reader where
  stream : PageStream
  /-- The pages given so far. -/
  pages : List (List Message)
  /-- How it ended: with the rows given, or with a failure. -/
  outcome? : Option (Except StoreError (List Message))

namespace Reader

variable {r : Reader} {l : Log} {store : Store} {place : Nat}

/-- A reader that has read nothing. -/
def start (p : Predicate) (size : PageSize) : Reader := ⟨.start p size, [], none⟩

/-- What a reader asks for. -/
def request (r : Reader) : Predicate × PageSize := (r.stream.predicate, r.stream.size)

def rows (r : Reader) : List Message := r.pages.flatten

/-- Asks for the next page. The first end counts. -/
def poll (r : Reader) (store : Store) : Reader × Store :=
  match r.stream.next store with
  | (.item rows, stream, store) => (⟨stream, r.pages ++ [rows], r.outcome?⟩, store)
  | (.done, stream, store) =>
    (⟨stream, r.pages, some (r.outcome?.getD (.ok r.rows))⟩, store)
  | (.failed e, stream, store) => (⟨stream, r.pages, some (r.outcome?.getD (.error e))⟩, store)

@[simp] theorem stream_poll (r : Reader) (store : Store) :
    (r.poll store).1.stream = (r.stream.next store).2.1 := by
  unfold poll
  split <;> simp_all

@[simp] theorem store_poll (r : Reader) (store : Store) :
    (r.poll store).2 = (r.stream.next store).2.2 := by
  unfold poll
  split <;> simp_all

@[simp] theorem request_poll (r : Reader) (store : Store) :
    (r.poll store).1.request = r.request := by
  rw [request, stream_poll, PageStream.next_eq_seek]
  rfl

theorem poll_of_none (h : r.stream.cursor? = none) (store : Store) :
    r.poll store = (⟨r.stream, r.pages, some (r.outcome?.getD (.ok r.rows))⟩, store) := by
  rw [poll, PageStream.next_of_none h]

theorem poll_of_ok {cursor : Cursor} {page : Page} (hc : r.stream.cursor? = some cursor)
    (hk : store.failAt? = none)
    (hf : store.log.fetch r.stream.predicate r.stream.size cursor = .ok page) :
    r.poll store = (⟨r.stream.seek page.next?, r.pages ++ [page.rows], r.outcome?⟩,
      store.record (.fetch r.stream.predicate r.stream.size cursor)) := by
  rw [poll, PageStream.next_of_ok hc (Store.spares_of_failAt?_eq_none hk 1).ne hf]

/-- Asks for pages, a number of times. -/
def polls (r : Reader) : Nat → Store → Reader × Store
  | 0, store => (r, store)
  | n + 1, store => (r.poll store).1.polls n (r.poll store).2

/-- A reader that nothing comes in between ends as the drain of its stream does. -/
theorem exists_polls_eq_drain (h : r.outcome? = none) (store : Store) :
    ∃ n t pages, r.polls n store =
      (⟨t, pages, some ((r.stream.drain store).1.map (r.rows ++ ·))⟩,
        (r.stream.drain store).2) := by
  obtain ⟨s, pages, outcome?⟩ := r
  cases h
  show ∃ n t pages', polls ⟨s, pages, none⟩ n store =
    (⟨t, pages', some ((s.drain store).1.map (pages.flatten ++ ·))⟩, (s.drain store).2)
  fun_induction PageStream.drain s store generalizing pages with
  | case1 s store t store' h =>
    refine ⟨1, t, pages, ?_⟩
    simp [polls, poll, h, rows, Except.map]
  | case2 s store e t store' h =>
    refine ⟨1, t, pages, ?_⟩
    simp [polls, poll, h, Except.map]
  | case3 s store page t store' h rest store'' hrest ih =>
    obtain ⟨n, u, pages', hn⟩ := ih (pages ++ [page])
    refine ⟨n + 1, u, pages', ?_⟩
    rw [hrest] at hn
    rw [polls, poll, h, hn]
    cases rest <;> simp [Except.map]

/-- Where a reader is and what it has. A cursor marks the place; a reader that has ended has none,
and its outcome is what it was given. -/
structure Follows (r : Reader) (l : Log) (place : Nat) : Prop where
  place_le : place ≤ l.length
  position : ∀ cursor, r.stream.cursor? = some cursor → cursor.position = place
  rows : r.rows = l.matchesBefore r.stream.predicate place
  outcome : ∀ outcome, r.outcome? = some outcome →
    outcome = .ok r.rows ∧ r.stream.cursor? = none

theorem follows_start (p : Predicate) (size : PageSize) (l : Log) : (start p size).Follows l 0 where
  place_le := Nat.zero_le _
  position := by
    intro cursor h
    cases h
    rfl
  rows := rfl
  outcome := by
    intro outcome h
    cases h

/-- What is appended does not change what a reader has read. -/
theorem Follows.append (h : r.Follows l place) (m : Message) : r.Follows (l.append m) place where
  place_le := by
    rw [Log.length_append]
    exact Nat.le_succ_of_le h.place_le
  position := h.position
  rows := by rw [Log.matchesBefore_append h.place_le, h.rows]
  outcome := h.outcome

/-- A reader that asks for a page and has a cursor is given one. -/
theorem Follows.fetch (h : r.Follows l place) {cursor : Cursor}
    (hc : r.stream.cursor? = some cursor) :
    ∃ page, l.fetch r.stream.predicate r.stream.size cursor = .ok page := by
  have hle : cursor.position ≤ l.length := by
    rw [h.position cursor hc]
    exact h.place_le
  obtain ⟨page, hf, -⟩ := Log.fetch_ok r.stream.predicate r.stream.size hle
  exact ⟨page, hf⟩

/-- No fetch of a reader fails. -/
theorem Follows.next_ne_failed (h : r.Follows store.log place) (hk : store.failAt? = none)
    (e : StoreError) : (r.stream.next store).1 ≠ .failed e := by
  have hne := (Store.spares_of_failAt?_eq_none hk 1).ne
  cases hc : r.stream.cursor? with
  | none =>
    rw [PageStream.next_of_none hc]
    exact nofun
  | some cursor =>
    obtain ⟨page, hf⟩ := h.fetch hc
    rw [PageStream.next_of_ok hc hne hf]
    exact nofun

/-- A reader that has nothing more to fetch stays where it is. -/
theorem Follows.poll_of_none (h : r.Follows l place) (hc : r.stream.cursor? = none)
    (store : Store) : (r.poll store).1.Follows l place := by
  rw [Reader.poll_of_none hc]
  refine ⟨h.place_le, h.position, h.rows, ?_⟩
  intro outcome ho
  cases ho
  refine ⟨?_, hc⟩
  cases ho' : r.outcome? with
  | none => rfl
  | some outcome => exact (h.outcome outcome ho').1

/-- A fetch moves a reader to the place where its page stops. -/
theorem Follows.poll_of_ok (h : r.Follows store.log place) (hk : store.failAt? = none)
    {cursor : Cursor} {page : Page} (hc : r.stream.cursor? = some cursor)
    (hf : store.log.fetch r.stream.predicate r.stream.size cursor = .ok page) :
    (r.poll store).1.Follows store.log (page.stop store.log) := by
  obtain ⟨hle, hrows⟩ := Log.rows_of_fetch hf
  rw [Reader.poll_of_ok hc hk hf]
  refine ⟨hle, ?_, ?_, ?_⟩
  · intro next hn
    have hnext : page.next? = some next := hn
    rw [Page.stop, hnext]
    rfl
  · rw [h.position cursor hc, ← h.rows] at hrows
    rw [Reader.rows, List.flatten_append, List.flatten_singleton]
    exact hrows.symm
  · intro outcome ho
    have hnone := (h.outcome outcome ho).2
    rw [hc] at hnone
    cases hnone

end Reader

end FeedQuery
