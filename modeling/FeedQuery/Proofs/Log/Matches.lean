import FeedQuery.Log

/-!
The matches of a predicate before and behind a place of a log, and what one fetch from that place
does: it moves the place on and gives exactly the matches in between.
-/
namespace FeedQuery.Log

variable {l : Log} {p : Predicate} {size : PageSize} {cursor : Cursor} {page : Page}

/-- The matches among the first entries of a log. -/
def matchesBefore (l : Log) (p : Predicate) (place : Nat) : List Message :=
  (l.messages.take place).filter fun m => p.holds m

/-- The matches among the entries behind the first ones. -/
def matchesFrom (l : Log) (p : Predicate) (place : Nat) : List Message :=
  (l.messages.drop place).filter fun m => p.holds m

theorem matchesBefore_append_matchesFrom (l : Log) (p : Predicate) (place : Nat) :
    l.matchesBefore p place ++ l.matchesFrom p place = l.query p := by
  rw [matchesBefore, matchesFrom, ← List.filter_append, List.take_append_drop, query]

theorem matchesBefore_length (l : Log) (p : Predicate) : l.matchesBefore p l.length = l.query p := by
  simp [matchesBefore, query, length]

@[simp] theorem length_append (l : Log) (m : Message) : (l.append m).length = l.length + 1 := by
  simp [length]

/-- What is behind a place does not change what is before it. -/
theorem matchesBefore_append {place : Nat} (h : place ≤ l.length) (m : Message) :
    (l.append m).matchesBefore p place = l.matchesBefore p place := by
  rw [matchesBefore, matchesBefore, messages_append, List.take_append_of_le_length h]

theorem scan_seen_le (p : Predicate) (n : Nat) (ms : List Message) :
    (scan p n ms).2 ≤ ms.length := by
  fun_induction scan p n ms with
  | case1 ms => exact Nat.zero_le _
  | case2 n => exact Nat.le_refl _
  | case3 n m ms hm rows seen hscan ih =>
    rw [hscan] at ih
    exact Nat.succ_le_succ ih
  | case4 n m ms hm rows seen hscan ih =>
    rw [hscan] at ih
    exact Nat.succ_le_succ ih

/-- The rows of a scan are the matches among the messages looked at. -/
theorem scan_rows (p : Predicate) (n : Nat) (ms : List Message) :
    (scan p n ms).1 = (ms.take (scan p n ms).2).filter fun m => p.holds m := by
  fun_induction scan p n ms with
  | case1 ms => rfl
  | case2 n => rfl
  | case3 n m ms hm rows seen hscan ih =>
    rw [hscan] at ih
    simp only [List.take_succ_cons, List.filter_cons, hm, ↓reduceIte]
    exact congrArg (m :: ·) ih
  | case4 n m ms hm rows seen hscan ih =>
    rw [hscan] at ih
    simp only [List.take_succ_cons, List.filter_cons, hm]
    exact ih

/-- Looking at more messages adds their matches. -/
theorem matchesBefore_add (l : Log) (p : Predicate) (place seen : Nat) :
    l.matchesBefore p (place + seen) =
      l.matchesBefore p place ++ ((l.messages.drop place).take seen).filter fun m => p.holds m := by
  rw [matchesBefore, List.take_add, List.filter_append, matchesBefore]

end FeedQuery.Log

namespace FeedQuery

/-- Where a page of a log stops: at its next cursor, or else at the end of the log. -/
def Page.stop (page : Page) (l : Log) : Nat := page.next?.elim l.length Cursor.position

namespace Log

variable {l : Log} {p : Predicate} {size : PageSize} {cursor : Cursor} {page : Page}

/-- What one fetch does, for a cursor in the log. -/
theorem fetch_ok (p : Predicate) (size : PageSize) (h : cursor.position ≤ l.length) :
    ∃ page, l.fetch p size cursor = .ok page ∧ page.stop l ≤ l.length ∧
      l.matchesBefore p (page.stop l) = l.matchesBefore p cursor.position ++ page.rows := by
  have hseen := scan_seen_le p size.val (l.messages.drop cursor.position)
  rw [List.length_drop] at hseen
  have hadd := l.matchesBefore_add p cursor.position
    (scan p size.val (l.messages.drop cursor.position)).2
  rw [← scan_rows] at hadd
  rcases Nat.lt_or_ge (cursor.position + (scan p size.val (l.messages.drop cursor.position)).2)
    l.length with hlt | hend
  · exact ⟨_, fetch_eq_ok_iff.2 ⟨h, .inr ⟨hlt, rfl⟩⟩, Nat.le_of_lt hlt, hadd⟩
  · refine ⟨_, fetch_eq_ok_iff.2 ⟨h, .inl ⟨hend, rfl⟩⟩, Nat.le_refl _, ?_⟩
    have hstop := Nat.le_antisymm hend (by
      simp only [length] at h ⊢
      omega)
    rw [← hadd, ← hstop]
    rfl

theorem position_le_of_fetch (h : l.fetch p size cursor = .ok page) :
    cursor.position ≤ l.length := (fetch_eq_ok_iff.1 h).1

/-- The rows of a page are the matches between its cursor and the place where it stops. -/
theorem rows_of_fetch (h : l.fetch p size cursor = .ok page) : page.stop l ≤ l.length ∧
    l.matchesBefore p (page.stop l) = l.matchesBefore p cursor.position ++ page.rows := by
  obtain ⟨page', hf, hspec⟩ := fetch_ok p size (position_le_of_fetch h)
  rw [h] at hf
  cases hf
  exact hspec

/-- A page of a log is the last one exactly when it has no next cursor. -/
theorem isLast_of_fetch (h : l.fetch p size cursor = .ok page) :
    page.isLast = page.next?.isNone := by
  obtain ⟨-, ⟨-, rfl⟩ | ⟨-, rfl⟩⟩ := fetch_eq_ok_iff.1 h <;> rfl

/-- A next cursor is behind the cursor of its page and still in the log. -/
theorem lt_of_fetch_next {next : Cursor} (h : l.fetch p size cursor = .ok page)
    (hn : page.next? = some next) :
    cursor.position < next.position ∧ next.position < l.length := by
  have hl : page.isLast = false := by rw [isLast_of_fetch h, hn]; rfl
  obtain ⟨n, hnext, hlt, hlen⟩ := next_of_fetch h hl
  rw [hn] at hnext
  cases hnext
  exact ⟨hlt, hlen⟩

end Log

end FeedQuery
