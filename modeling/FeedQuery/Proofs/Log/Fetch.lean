import FeedQuery.Proofs.Log.Chunks
import FeedQuery.Sample
import FeedQuery.Store

/-!
All that one fetch from a log answers: when it refuses a cursor, which rows it gives, and how the
fields of a page hang together. A page that is not the last one stops right behind its last row.
-/
namespace FeedQuery.Log

variable {l : Log} {p : Predicate} {size : PageSize} {cursor : Cursor} {page : Page}

/-- A cursor is refused if it is past the end, by its position and the length of the log alone. -/
theorem fetch_eq_error_iff {e : StoreError} : l.fetch p size cursor = .error e ↔
    l.length < cursor.position ∧ e = .invalidCursor (pastEndText cursor.position l.length) := by
  by_cases hpast : l.length < cursor.position
  · have hfetch : l.fetch p size cursor =
        .error (.invalidCursor (pastEndText cursor.position l.length)) := by
      simp [fetch, hpast]
    rw [hfetch, Except.error.injEq]
    exact ⟨fun h => ⟨hpast, h.symm⟩, fun h => h.2.symm⟩
  · obtain ⟨page, hpage, -⟩ := fetch_ok p size (Nat.le_of_not_lt hpast)
    simp [hpage, hpast]

/-- A scan that stops before the end of a list stops right behind a match, its last row. -/
theorem scan_stops_at_match (p : Predicate) {n : Nat} (ms : List Message) (hn : 0 < n)
    (h : (scan p n ms).2 < ms.length) : ∃ k m, (scan p n ms).2 = k + 1 ∧ ms[k]? = some m ∧
      p.holds m = true ∧ (scan p n ms).1.getLast? = some m := by
  fun_induction scan p n ms with
  | case1 ms => omega
  | case2 n => simp at h
  | case3 n m ms hm rows seen hscan ih =>
    simp only [hscan] at ih
    by_cases hzero : n = 0
    · -- The row that fills the page: the scan has stopped at it.
      subst hzero
      obtain ⟨rfl, rfl⟩ : [] = rows ∧ 0 = seen := by simpa [scan] using hscan
      exact ⟨0, m, rfl, rfl, hm, rfl⟩
    · obtain ⟨k, m', rfl, hget, hm', hlast⟩ := ih (by omega) (by simpa using h)
      exact ⟨k + 1, m', rfl, by simpa using hget, hm', by simp [List.getLast?_cons, hlast]⟩
  | case4 n m ms hm rows seen hscan ih =>
    simp only [hscan] at ih
    obtain ⟨k, m', rfl, hget, hm', hlast⟩ := ih (by omega) (by simpa using h)
    exact ⟨k + 1, m', rfl, by simpa using hget, hm', hlast⟩

/-- The entry before the next cursor of a page is a match, and the last row of the page. -/
theorem getLast?_rows_of_fetch {place : Nat} (h : l.fetch p size cursor = .ok page)
    (hn : page.next? = some (.offset place)) :
    ∃ m, l.messages[place - 1]? = some m ∧ p.holds m = true ∧ page.rows.getLast? = some m := by
  have hstop := scan_stops_at_match p (l.messages.drop cursor.position) size.pos
  rw [List.length_drop] at hstop
  obtain ⟨-, ⟨-, rfl⟩ | ⟨hlt, rfl⟩⟩ := fetch_eq_ok_iff.1 h <;> cases hn
  obtain ⟨k, m, hseen, hget, hm, hlast⟩ := hstop (Nat.lt_sub_iff_add_lt'.2 hlt)
  rw [List.getElem?_drop] at hget
  exact ⟨m, by rw [hseen]; exact hget, hm, hlast⟩

/-- The matches behind a cursor are the rows of its page and the matches behind the next one. -/
theorem matchesFrom_eq_rows_append {next : Cursor} (h : l.fetch p size cursor = .ok page)
    (hn : page.next? = some next) :
    l.matchesFrom p cursor.position = page.rows ++ l.matchesFrom p next.position := by
  rw [rows_eq_take h, matchesFrom_next h hn, List.take_append_drop]

theorem exists_offset_of_fetch {next : Cursor} (h : l.fetch p size cursor = .ok page)
    (hn : page.next? = some next) : ∃ place, next = .offset place := by
  obtain ⟨hlt, -⟩ := lt_of_fetch_next h hn
  cases next with
  | start => simp at hlt
  | offset place => exact ⟨place, rfl⟩

/-- The end of the log is reached exactly where there is no next cursor. -/
theorem reachedEnd_iff_of_fetch (h : l.fetch p size cursor = .ok page) :
    page.reachedEnd = true ↔ page.next? = none := by
  obtain ⟨-, ⟨-, rfl⟩ | ⟨-, rfl⟩⟩ := fetch_eq_ok_iff.1 h <;> simp

/-- The last page holds all matches that are left. -/
theorem rows_eq_matchesFrom_of_last (h : l.fetch p size cursor = .ok page)
    (hn : page.next? = none) : page.rows = l.matchesFrom p cursor.position := by
  have hlen : (l.matchesFrom p cursor.position).length ≤ size.val := by
    have := (next?_eq_none_iff h).1 hn
    omega
  rw [rows_eq_take h, List.take_of_length_le hlen]

/-- A fetch refuses a cursor exactly if it is past the end of the log, and then looks at no entry.
For any other cursor it gives the first matches from there on, as many as fit on a page, and tells
by each of the other fields alike whether there is more. A next cursor is the place right behind the
last row, it is further on and still in the log, and what matches behind it are the other matches.
The log stays as it is. -/
theorem fetch_answers (l : Log) (p : Predicate) (size : PageSize) (cursor : Cursor) :
    (∀ e, l.fetch p size cursor = .error e ↔ l.length < cursor.position ∧
      e = .invalidCursor (pastEndText cursor.position l.length)) ∧
    (cursor.position ≤ l.length → ∃ page, l.fetch p size cursor = .ok page ∧
      page.rows = (l.matchesFrom p cursor.position).take size.val ∧
      page.rowCount = page.rows.length ∧
      (page.reachedEnd = true ↔ page.next? = none) ∧
      (page.next? = none → page.rows = l.matchesFrom p cursor.position) ∧
      ∀ next, page.next? = some next → ∃ place, next = .offset place ∧
        cursor.position < place ∧ place < l.length ∧
        (∃ m, l.messages[place - 1]? = some m ∧ p.holds m = true ∧
          page.rows.getLast? = some m) ∧
        page.rows = ((l.messages.drop cursor.position).take (place - cursor.position)).filter
          (fun m => p.holds m) ∧
        l.matchesFrom p cursor.position = page.rows ++ l.matchesFrom p place) ∧
    ∀ store : Store, store.log = l → (store.fetch p size cursor).2.log = l := by
  refine ⟨fun e => fetch_eq_error_iff, ?_, fun store h => h⟩
  intro hle
  obtain ⟨page, hpage, -⟩ := fetch_ok p size hle
  refine ⟨page, hpage, rows_eq_take hpage, rfl, reachedEnd_iff_of_fetch hpage,
    rows_eq_matchesFrom_of_last hpage, ?_⟩
  intro next hn
  obtain ⟨place, rfl⟩ := exists_offset_of_fetch hpage hn
  obtain ⟨hlt, hlen⟩ := lt_of_fetch_next hpage hn
  refine ⟨place, rfl, hlt, hlen, getLast?_rows_of_fetch hpage hn, ?_,
    matchesFrom_eq_rows_append hpage hn⟩
  obtain ⟨-, hrows⟩ := rows_of_fetch hpage
  have hadd := l.matchesBefore_add p cursor.position (place - cursor.position)
  rw [Page.stop, hn, Option.elim_some, Cursor.position_offset] at hrows
  rw [Cursor.position_offset] at hlt
  rw [Nat.add_sub_cancel' (Nat.le_of_lt hlt), hrows] at hadd
  exact List.append_cancel_left hadd

/-- The page of two from the second entry on of what the first author wrote passes over an entry of
another author, and there is more behind it. -/
theorem fetch_answers_mixed :
    let p : Predicate := .condition (.text .author Sample.alice)
    Cursor.position (.offset 1) ≤ Sample.mixed.length ∧
      ∃ page, Sample.mixed.fetch p ⟨2, by decide⟩ (.offset 1) = .ok page ∧
        page.next? = some (.offset 5) ∧
        page.rows.getLast? = Sample.mixed.messages[4]? ∧
        Sample.mixed.matchesFrom p 1 = page.rows ++ Sample.mixed.matchesFrom p 5 := by
  intro p
  have hle : Cursor.position (.offset 1) ≤ Sample.mixed.length := by decide
  obtain ⟨page, hpage, -, -, -, -, hnext⟩ :=
    (fetch_answers Sample.mixed p ⟨2, by decide⟩ (.offset 1)).2.1 hle
  have hn : page.next? = some (.offset 5) := by
    cases hpage
    rfl
  obtain ⟨place, hplace, -, -, ⟨m, hget, -, hlast⟩, -, hall⟩ := hnext _ hn
  cases hplace
  exact ⟨hle, page, hpage, hn, hlast.trans hget.symm, hall⟩

end FeedQuery.Log
