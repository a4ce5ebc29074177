import FeedQuery.Proofs.Log.Matches

/-!
The pages of a log: what a reader is given who follows the cursors while nothing is appended. Their
rows are the matches behind the first cursor, and there are at most as many as entries behind it,
and one.
-/
namespace FeedQuery.Log

variable {l : Log} {p : Predicate} {size : PageSize} {cursor : Cursor}

/-- The pages from a cursor on, each with the cursor that it was fetched at. -/
def pagesFrom (l : Log) (p : Predicate) (size : PageSize) (cursor : Cursor) :
    List (Cursor × Page) :=
  match _hf : l.fetch p size cursor with
  | .error _ => []
  | .ok page =>
    match _hn : page.next? with
    | none => [(cursor, page)]
    | some next => (cursor, page) :: l.pagesFrom p size next
termination_by l.length - cursor.position
decreasing_by
  have := lt_of_fetch_next _hf _hn
  omega

theorem pagesFrom_of_last {page : Page} (hf : l.fetch p size cursor = .ok page)
    (hn : page.next? = none) : l.pagesFrom p size cursor = [(cursor, page)] := by
  rw [pagesFrom]
  split
  · simp_all
  · split <;> simp_all

theorem pagesFrom_of_more {page : Page} {next : Cursor} (hf : l.fetch p size cursor = .ok page)
    (hn : page.next? = some next) :
    l.pagesFrom p size cursor = (cursor, page) :: l.pagesFrom p size next := by
  rw [pagesFrom]
  split
  · simp_all
  · split <;> simp_all

/-- All pages of a predicate. -/
def pages (l : Log) (p : Predicate) (size : PageSize) : List (Cursor × Page) :=
  l.pagesFrom p size .start

theorem start_position_le (l : Log) : Cursor.start.position ≤ l.length := Nat.zero_le _

/-- The rows of pages, one page after the other. -/
def rowsOf (pages : List (Cursor × Page)) : List Message := pages.flatMap fun q => q.2.rows

@[simp] theorem rowsOf_nil : rowsOf [] = [] := rfl

@[simp] theorem rowsOf_cons (q : Cursor × Page) (pages : List (Cursor × Page)) :
    rowsOf (q :: pages) = q.2.rows ++ rowsOf pages := rfl

/-- Induction along the pages of a log, from a cursor in the log: a page that has no next cursor,
and a page before others. -/
@[elab_as_elim]
theorem pagesFrom_induction {motive : Cursor → List (Cursor × Page) → Prop} (p : Predicate)
    (size : PageSize)
    (last : ∀ cursor page, cursor.position ≤ l.length → l.fetch p size cursor = .ok page →
      page.next? = none → motive cursor [(cursor, page)])
    (more : ∀ cursor page next, cursor.position ≤ l.length → l.fetch p size cursor = .ok page →
      page.next? = some next → cursor.position < next.position → next.position ≤ l.length →
      motive next (l.pagesFrom p size next) →
      motive cursor ((cursor, page) :: l.pagesFrom p size next))
    (h : cursor.position ≤ l.length) : motive cursor (l.pagesFrom p size cursor) := by
  fun_induction pagesFrom l p size cursor with
  | case1 cursor e hf =>
    obtain ⟨page, hok, -⟩ := fetch_ok p size h
    rw [hf] at hok
    cases hok
  | case2 cursor page hf hn => exact last cursor page h hf hn
  | case3 cursor page hf next hn ih =>
    obtain ⟨hlt, hlen⟩ := lt_of_fetch_next hf hn
    have hle := Nat.le_of_lt hlen
    exact more cursor page next h hf hn hlt hle (ih hle)

/-- The matches before a place and the rows of the pages from there on are all matches. -/
theorem matchesBefore_append_rowsOf (p : Predicate) (size : PageSize)
    (h : cursor.position ≤ l.length) :
    l.matchesBefore p cursor.position ++ rowsOf (l.pagesFrom p size cursor) = l.query p := by
  refine pagesFrom_induction p size ?_ ?_ h
  · intro cursor page _ hf hn
    obtain ⟨-, hrows⟩ := rows_of_fetch hf
    rw [rowsOf_cons, rowsOf_nil, List.append_nil, ← hrows, Page.stop, hn]
    exact matchesBefore_length l p
  · intro cursor page next _ hf hn _ _ ih
    obtain ⟨-, hrows⟩ := rows_of_fetch hf
    rw [Page.stop, hn] at hrows
    rw [rowsOf_cons, ← List.append_assoc, ← hrows]
    exact ih

/-- The rows of all pages are all matches. -/
theorem rowsOf_pages (l : Log) (p : Predicate) (size : PageSize) :
    rowsOf (l.pages p size) = l.query p :=
  matchesBefore_append_rowsOf p size (start_position_le l)

/-- Each page but the last moves the cursor on. -/
theorem length_pagesFrom_le (p : Predicate) (size : PageSize) (h : cursor.position ≤ l.length) :
    (l.pagesFrom p size cursor).length ≤ l.length - cursor.position + 1 := by
  refine pagesFrom_induction p size ?_ ?_ h
  · intro cursor page _ _ _
    rw [List.length_singleton]
    omega
  · intro cursor page next _ _ _ hlt hle ih
    rw [List.length_cons]
    omega

/-- Before the cursor of a page are exactly the matches that the earlier pages gave. -/
theorem rowsOf_take_pagesFrom (p : Predicate) (size : PageSize) (h : cursor.position ≤ l.length) :
    ∀ (j : Nat) (q : Cursor × Page), (l.pagesFrom p size cursor)[j]? = some q →
      q.1.position ≤ l.length ∧
      l.matchesBefore p cursor.position ++ rowsOf ((l.pagesFrom p size cursor).take j) =
        l.matchesBefore p q.1.position := by
  refine pagesFrom_induction p size ?_ ?_ h
  · intro cursor page h _ _ j q hq
    cases j with
    | zero =>
      cases hq
      exact ⟨h, List.append_nil _⟩
    | succ j => cases hq
  · intro cursor page next h hf hn _ _ ih j q hq
    cases j with
    | zero =>
      cases hq
      exact ⟨h, List.append_nil _⟩
    | succ j =>
      obtain ⟨hle, hrest⟩ := ih j q hq
      obtain ⟨-, hrows⟩ := rows_of_fetch hf
      rw [Page.stop, hn] at hrows
      refine ⟨hle, ?_⟩
      rw [List.take_succ_cons, rowsOf_cons, ← List.append_assoc, ← hrows]
      exact hrest

/-- The rows of the pages before one and the matches from its cursor on are all matches. -/
theorem rowsOf_take_append_matchesFrom {j : Nat} {q : Cursor × Page}
    (hq : (l.pages p size)[j]? = some q) :
    rowsOf ((l.pages p size).take j) ++ l.matchesFrom p q.1.position = l.query p := by
  obtain ⟨-, hrows⟩ := rowsOf_take_pagesFrom p size (start_position_le l) j q hq
  rw [← matchesBefore_append_matchesFrom l p q.1.position, ← hrows]
  rfl

end FeedQuery.Log
