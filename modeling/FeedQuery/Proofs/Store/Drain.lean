import FeedQuery.Proofs.Log.Pages
import FeedQuery.Stream

/-!
What a store answers when one of its fetches may fail: one fetch, one page of a stream, and all
pages of a stream. A drain gives all matches if none of its fetches fails, and otherwise nothing
but the failure, at the cursor of the page that was asked for.
-/
namespace FeedQuery

namespace Store

variable {s : Store} {p : Predicate} {size : PageSize} {cursor : Cursor}

@[simp] theorem failAt?_record (s : Store) (a : Access) : (s.record a).failAt? = s.failAt? := rfl

@[simp] theorem fetches_record_query (s : Store) (p : Predicate) :
    (s.record (.query p)).fetches = s.fetches := by
  simp [fetches, record, Access.isFetch]

@[simp] theorem fetches_record_fetch (s : Store) (p : Predicate) (size : PageSize)
    (cursor : Cursor) : (s.record (.fetch p size cursor)).fetches = s.fetches + 1 := by
  simp [fetches, record, List.countP_cons, Access.isFetch]

/-- The store after the fetches of one reader. -/
def recordFetches (s : Store) (p : Predicate) (size : PageSize) : List Cursor → Store
  | [] => s
  | cursor :: cursors => (s.record (.fetch p size cursor)).recordFetches p size cursors

@[simp] theorem recordFetches_cons (s : Store) (p : Predicate) (size : PageSize)
    (cursor : Cursor) (cursors : List Cursor) : s.recordFetches p size (cursor :: cursors) =
      (s.record (.fetch p size cursor)).recordFetches p size cursors := rfl

theorem fetches_recordFetches (s : Store) (p : Predicate) (size : PageSize)
    (cursors : List Cursor) :
    (s.recordFetches p size cursors).fetches = s.fetches + cursors.length := by
  induction cursors generalizing s with
  | nil => rfl
  | cons cursor cursors ih =>
    rw [recordFetches_cons, ih, fetches_record_fetch, List.length_cons]
    omega

/-- None of the next fetches of a store fails of itself. -/
def Spares (s : Store) (n : Nat) : Prop :=
  ∀ k, s.failAt? = some k → k < s.fetches ∨ s.fetches + n ≤ k

theorem Spares.ne {n : Nat} (h : s.Spares (n + 1)) : s.failAt? ≠ some s.fetches := by
  intro hk
  rcases h _ hk with h | h <;> omega

theorem Spares.record {n : Nat} (h : s.Spares (n + 1)) (p : Predicate) (size : PageSize)
    (cursor : Cursor) : (s.record (.fetch p size cursor)).Spares n := by
  intro k hk
  rw [fetches_record_fetch]
  rcases h k hk with hlt | hle
  · exact .inl (by omega)
  · exact .inr (by omega)

theorem spares_of_failAt?_eq_none (h : s.failAt? = none) (n : Nat) : s.Spares n := by
  intro k hk
  rw [h] at hk
  cases hk

theorem fetch_of_ne (h : s.failAt? ≠ some s.fetches) (p : Predicate) (size : PageSize)
    (cursor : Cursor) :
    s.fetch p size cursor = (s.log.fetch p size cursor, s.record (.fetch p size cursor)) := by
  rw [fetch, if_neg h]

theorem fetch_of_eq (h : s.failAt? = some s.fetches) (p : Predicate) (size : PageSize)
    (cursor : Cursor) : s.fetch p size cursor =
      (.error (.fetch cursor "connection reset"), s.record (.fetch p size cursor)) := by
  rw [fetch, if_pos h]

end Store

namespace PageStream

variable {s : PageStream} {store : Store} {cursor : Cursor} {page : Page}

theorem next_of_none (h : s.cursor? = none) (store : Store) :
    s.next store = (.done, s, store) := by
  rw [next, h]

/-- A stream gives the page at its cursor and goes on at the next one. -/
theorem next_of_ok (hc : s.cursor? = some cursor) (hk : store.failAt? ≠ some store.fetches)
    (hf : store.log.fetch s.predicate s.size cursor = .ok page) :
    s.next store =
      (.item page.rows, s.seek page.next?, store.record (.fetch s.predicate s.size cursor)) := by
  simp only [next, hc, Store.fetch_of_ne hk, hf, Log.isLast_of_fetch hf]
  cases page.next? <;> rfl

/-- A stream whose fetch fails gives the failure and has nothing more to fetch. -/
theorem next_of_fault (hc : s.cursor? = some cursor)
    (hk : store.failAt? = some store.fetches) :
    s.next store = (.failed (.fetch cursor "connection reset"), s.seek none,
      store.record (.fetch s.predicate s.size cursor)) := by
  simp only [next, hc, Store.fetch_of_eq hk]

theorem store_next_of_some (hc : s.cursor? = some cursor) (store : Store) :
    (s.next store).2.2 = store.record (.fetch s.predicate s.size cursor) := by
  simp only [next, hc, Store.fetch]
  split <;> simp_all

@[simp] theorem log_next (s : PageStream) (store : Store) :
    (s.next store).2.2.log = store.log := by
  cases hc : s.cursor? with
  | none => rw [next_of_none hc]
  | some cursor => rw [store_next_of_some hc, Store.log_record]

@[simp] theorem failAt?_next (s : PageStream) (store : Store) :
    (s.next store).2.2.failAt? = store.failAt? := by
  cases hc : s.cursor? with
  | none => rw [next_of_none hc]
  | some cursor => rw [store_next_of_some hc, Store.failAt?_record]

/-- A stream only ever moves its cursor. -/
theorem next_eq_seek (s : PageStream) (store : Store) :
    (s.next store).2.1 = s.seek (s.next store).2.1.cursor? := by
  unfold next
  split
  · rfl
  · split <;> rfl

theorem drain_of_none (h : s.cursor? = none) (store : Store) :
    s.drain store = (.ok [], store) := by
  rw [drain]
  split <;> simp_all [next_of_none h]

theorem drain_of_item {t : PageStream} {store' : Store} {rows : List Message}
    (h : s.next store = (.item rows, t, store')) :
    s.drain store = ((t.drain store').1.map (rows ++ ·), (t.drain store').2) := by
  rw [drain]
  split <;> simp_all

theorem drain_of_failed {t : PageStream} {store' : Store} {e : StoreError}
    (h : s.next store = (.failed e, t, store')) : s.drain store = (.error e, store') := by
  rw [drain]
  split <;> simp_all

/-- A drain none of whose fetches fails gives the rows of all pages from its cursor on. -/
theorem drain_of_spares {l : Log} (p : Predicate) (size : PageSize)
    (h : cursor.position ≤ l.length) : ∀ store : Store, store.log = l →
      store.Spares (l.pagesFrom p size cursor).length →
      (⟨p, size, some cursor⟩ : PageStream).drain store =
        (.ok (Log.rowsOf (l.pagesFrom p size cursor)),
          store.recordFetches p size ((l.pagesFrom p size cursor).map Prod.fst)) := by
  refine Log.pagesFrom_induction p size ?_ ?_ h
  · intro cursor page _ hf hn store hl hs
    subst hl
    have hnext := next_of_ok (s := ⟨p, size, some cursor⟩) rfl hs.ne hf
    rw [drain_of_item hnext, drain_of_none (by simp [seek, hn])]
    rfl
  · intro cursor page next _ hf hn _ _ ih store hl hs
    subst hl
    have hnext := next_of_ok (s := ⟨p, size, some cursor⟩) rfl hs.ne hf
    have hrest := ih (store.record (.fetch p size cursor)) rfl (hs.record p size cursor)
    rw [drain_of_item hnext, seek, hn, hrest]
    rfl

/-- A drain one of whose fetches fails gives that failure alone, and makes no fetch after it. -/
theorem drain_of_fault {l : Log} (p : Predicate) (size : PageSize)
    (h : cursor.position ≤ l.length) : ∀ (j : Nat) (q : Cursor × Page) (store : Store),
      store.log = l → store.failAt? = some (store.fetches + j) →
      (l.pagesFrom p size cursor)[j]? = some q →
      (⟨p, size, some cursor⟩ : PageStream).drain store =
        (.error (.fetch q.1 "connection reset"),
          store.recordFetches p size (((l.pagesFrom p size cursor).take (j + 1)).map Prod.fst)) := by
  refine Log.pagesFrom_induction p size ?_ ?_ h
  · intro cursor page _ _ _ j q store _ hk hq
    cases j with
    | zero =>
      cases hq
      exact drain_of_failed (next_of_fault (s := ⟨p, size, some cursor⟩) rfl hk)
    | succ j => cases hq
  · intro cursor page next _ hf hn _ _ ih j q store hl hk hq
    cases j with
    | zero =>
      cases hq
      exact drain_of_failed (next_of_fault (s := ⟨p, size, some cursor⟩) rfl hk)
    | succ j =>
      subst hl
      have hne : store.failAt? ≠ some store.fetches := by
        rw [hk, Ne, Option.some.injEq]
        omega
      have hk' : (store.record (.fetch p size cursor)).failAt? =
          some ((store.record (.fetch p size cursor)).fetches + j) := by
        rw [Store.failAt?_record, Store.fetches_record_fetch, hk, Option.some.injEq]
        omega
      have hnext := next_of_ok (s := ⟨p, size, some cursor⟩) rfl hne hf
      have hrest := ih j q (store.record (.fetch p size cursor)) rfl hk' hq
      rw [drain_of_item hnext, seek, hn, hrest]
      rfl

end PageStream

namespace Store

variable {s : Store} {p : Predicate} {size : PageSize}

/-- Page by page to the end gives all matches, if none of the fetches fails. -/
theorem run_of_spares (h : s.Spares (s.log.pages p size).length) :
    s.run p (some size) =
      (.ok (s.log.query p), s.recordFetches p size ((s.log.pages p size).map Prod.fst)) := by
  rw [← Log.rowsOf_pages s.log p size]
  exact PageStream.drain_of_spares p size (Log.start_position_le s.log) s rfl h

/-- Page by page to a fetch that fails gives that failure alone. -/
theorem run_of_fault {j : Nat} {q : Cursor × Page} (hk : s.failAt? = some (s.fetches + j))
    (hq : (s.log.pages p size)[j]? = some q) :
    s.run p (some size) = (.error (.fetch q.1 "connection reset"),
      s.recordFetches p size (((s.log.pages p size).take (j + 1)).map Prod.fst)) :=
  PageStream.drain_of_fault p size (Log.start_position_le s.log) j q s rfl hk hq

end Store

end FeedQuery
