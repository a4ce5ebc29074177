import FeedQuery.Proofs.Log.Pages

/-!
What is in each page of a log, and how many pages there are: the matches are cut into pieces of the
page size, and a last page without any row follows where the log goes on behind a full one.
-/
namespace FeedQuery.Log

variable {l : Log} {p : Predicate} {size : PageSize} {cursor next : Cursor} {page : Page}

theorem scan_rows_eq_take (p : Predicate) (n : Nat) (ms : List Message) :
    (scan p n ms).1 = (ms.filter fun m => p.holds m).take n := by
  fun_induction scan p n ms with
  | case1 ms => rw [List.take_zero]
  | case2 n => rfl
  | case3 n m ms hm rows seen hscan ih =>
    rw [hscan] at ih
    simp only [List.filter_cons, hm, ↓reduceIte, List.take_succ_cons]
    exact congrArg (m :: ·) ih
  | case4 n m ms hm rows seen hscan ih =>
    rw [hscan] at ih
    simp only [List.filter_cons, hm]
    exact ih

/-- Whether the last entry is a match, if there is an entry. -/
def EndsInMatch (p : Predicate) (ms : List Message) : Prop := ∀ m ∈ ms.getLast?, p.holds m = true

instance (p : Predicate) (ms : List Message) : Decidable (EndsInMatch p ms) :=
  inferInstanceAs (Decidable (∀ m ∈ ms.getLast?, p.holds m = true))

theorem endsInMatch_cons_of_holds {m : Message} {ms : List Message} (hm : p.holds m = true) :
    EndsInMatch p (m :: ms) ↔ EndsInMatch p ms := by
  rw [EndsInMatch, EndsInMatch, List.getLast?_cons]
  cases ms.getLast? <;> simp [hm]

theorem endsInMatch_cons_of_mem {m m' : Message} {ms : List Message} (h : m' ∈ ms) :
    EndsInMatch p (m :: ms) ↔ EndsInMatch p ms := by
  rw [EndsInMatch, EndsInMatch, List.getLast?_cons]
  cases hms : ms.getLast? with
  | none =>
    rw [List.getLast?_eq_none_iff.1 hms] at h
    cases h
  | some last => simp

/-- A scan looks at everything if it finds fewer matches than it may, or its last one at the end. -/
theorem scan_seen_eq_length_iff (p : Predicate) (n : Nat) (ms : List Message) :
    (scan p n ms).2 = ms.length ↔ (ms.filter fun m => p.holds m).length < n ∨
      (ms.filter fun m => p.holds m).length = n ∧ EndsInMatch p ms := by
  fun_induction scan p n ms with
  | case1 ms =>
    cases hms : ms.getLast? with
    | none => simp [List.getLast?_eq_none_iff.1 hms, EndsInMatch]
    | some last =>
      have hmem := List.mem_of_getLast? hms
      constructor
      · intro h
        rw [List.length_eq_zero_iff.1 h.symm] at hmem
        cases hmem
      · rintro (h | ⟨h, hlast⟩)
        · cases h
        · have hnone := List.filter_eq_nil_iff.1 (List.length_eq_zero_iff.1 h) last hmem
          exact absurd (hlast last hms) hnone
  | case2 n => simp
  | case3 n m ms hm rows seen hscan ih =>
    rw [hscan] at ih
    simp only [List.filter_cons, hm, ↓reduceIte, List.length_cons, Nat.succ_eq_add_one,
      Nat.add_right_cancel_iff, Nat.add_lt_add_iff_right, endsInMatch_cons_of_holds hm]
    exact ih
  | case4 n m ms hm rows seen hscan ih =>
    rw [hscan] at ih
    simp only [List.filter_cons, hm, List.length_cons, Nat.add_right_cancel_iff]
    rw [ih]
    refine or_congr_right (and_congr_right fun hlen => ?_)
    obtain ⟨m', hm'⟩ := List.exists_mem_of_length_pos (show 0 < _ by rw [hlen]; omega)
    exact (endsInMatch_cons_of_mem (List.mem_filter.1 hm').1).symm

theorem rows_eq_take (h : l.fetch p size cursor = .ok page) :
    page.rows = (l.matchesFrom p cursor.position).take size.val := by
  obtain ⟨-, ⟨-, rfl⟩ | ⟨-, rfl⟩⟩ := fetch_eq_ok_iff.1 h <;> exact scan_rows_eq_take _ _ _

/-- Behind a page that is not the last one are the matches that it has no room for. -/
theorem matchesFrom_next (h : l.fetch p size cursor = .ok page) (hn : page.next? = some next) :
    l.matchesFrom p next.position = (l.matchesFrom p cursor.position).drop size.val := by
  obtain ⟨-, hrows⟩ := rows_of_fetch h
  rw [Page.stop, hn, Option.elim_some, rows_eq_take h] at hrows
  have hall := (l.matchesBefore_append_matchesFrom p next.position).trans
    (l.matchesBefore_append_matchesFrom p cursor.position).symm
  rw [hrows, List.append_assoc, List.append_cancel_left_eq] at hall
  rw [← List.append_cancel_left_eq, hall, List.take_append_drop]

/-- A page is the last one if it takes all matches that are left and, being full, ends with the
log. -/
theorem next?_eq_none_iff (h : l.fetch p size cursor = .ok page) : page.next? = none ↔
    (l.matchesFrom p cursor.position).length < size.val ∨
      (l.matchesFrom p cursor.position).length = size.val ∧ EndsInMatch p l.messages := by
  have hseen := scan_seen_eq_length_iff p size.val (l.messages.drop cursor.position)
  have hle := scan_seen_le p size.val (l.messages.drop cursor.position)
  have hfetch : page.next? = none ↔
      (scan p size.val (l.messages.drop cursor.position)).2 =
        (l.messages.drop cursor.position).length := by
    rw [List.length_drop] at hle ⊢
    obtain ⟨hpos, ⟨hend, rfl⟩ | ⟨hlt, rfl⟩⟩ := fetch_eq_ok_iff.1 h
    · simp only [length] at hpos hend
      simp only [true_iff]
      omega
    · simp only [length] at hlt
      simp only [reduceCtorEq, false_iff]
      omega
  rw [hfetch, hseen]
  refine or_congr_right (and_congr_right fun hlen => ?_)
  have hlt : cursor.position < l.messages.length := by
    apply Nat.lt_of_not_le
    intro hge
    rw [List.drop_eq_nil_of_le hge] at hlen
    exact absurd hlen (Nat.ne_of_lt size.pos)
  rw [EndsInMatch, EndsInMatch, List.getLast?_drop, if_neg (Nat.not_le.2 hlt)]

/-- How many pages matches are cut into, and whether the log ends with the last of them. -/
def pageCount (size : PageSize) (count : Nat) (ended : Prop) [Decidable ended] : Nat :=
  count / size.val + 1 - if 0 < count ∧ size.val ∣ count ∧ ended then 1 else 0

theorem pageCount_of_lt {count : Nat} {ended : Prop} [Decidable ended] (h : count < size.val) :
    pageCount size count ended = 1 := by
  have hnot : ¬ (0 < count ∧ size.val ∣ count ∧ ended) := by
    rintro ⟨hpos, hdvd, -⟩
    exact absurd (Nat.le_of_dvd hpos hdvd) (Nat.not_le.2 h)
  rw [pageCount, if_neg hnot, Nat.div_eq_of_lt h]

theorem pageCount_of_eq {ended : Prop} [Decidable ended] (h : ended) :
    pageCount size size.val ended = 1 := by
  rw [pageCount, if_pos ⟨size.pos, Nat.dvd_refl _, h⟩, Nat.div_self size.pos]

/-- A full page before others is one page. -/
theorem pageCount_of_le {count : Nat} {ended : Prop} [Decidable ended] (h : size.val ≤ count)
    (hne : ¬ (count = size.val ∧ ended)) :
    pageCount size count ended = pageCount size (count - size.val) ended + 1 := by
  obtain ⟨rest, rfl⟩ := Nat.exists_eq_add_of_le h
  have hsame : 0 < size.val + rest ∧ size.val ∣ size.val + rest ∧ ended ↔
      0 < rest ∧ size.val ∣ rest ∧ ended := by
    rw [Nat.dvd_add_right (Nat.dvd_refl size.val)]
    constructor
    · rintro ⟨-, hdvd, hended⟩
      refine ⟨Nat.pos_of_ne_zero fun hzero => hne ⟨by omega, hended⟩, hdvd, hended⟩
    · rintro ⟨-, hdvd, hended⟩
      exact ⟨Nat.lt_of_lt_of_le size.pos h, hdvd, hended⟩
  rw [pageCount, pageCount, Nat.add_sub_cancel_left, Nat.add_div_left rest size.pos]
  simp only [hsame]
  generalize rest / size.val = quotient
  split <;> omega

/-- How many pages there are from a cursor on. -/
theorem length_pagesFrom (p : Predicate) (size : PageSize) (h : cursor.position ≤ l.length) :
    (l.pagesFrom p size cursor).length =
      pageCount size (l.matchesFrom p cursor.position).length (EndsInMatch p l.messages) := by
  refine pagesFrom_induction p size ?_ ?_ h
  · intro cursor page _ hf hn
    rw [List.length_singleton]
    rcases (next?_eq_none_iff hf).1 hn with hlt | ⟨heq, hended⟩
    · rw [pageCount_of_lt hlt]
    · rw [heq, pageCount_of_eq hended]
  · intro cursor page next _ hf hn _ _ ih
    have hnot := mt (next?_eq_none_iff hf).2 (by rw [hn]; exact nofun)
    rw [not_or] at hnot
    rw [List.length_cons, ih, matchesFrom_next hf hn, List.length_drop,
      pageCount_of_le (Nat.le_of_not_lt hnot.1) hnot.2]

/-- The pages from a cursor on hold the matches behind it in pieces of the page size. -/
theorem rows_of_getElem?_pagesFrom (p : Predicate) (size : PageSize)
    (h : cursor.position ≤ l.length) : ∀ (k : Nat) (q : Cursor × Page),
      (l.pagesFrom p size cursor)[k]? = some q →
        q.2.rows = ((l.matchesFrom p cursor.position).drop (k * size.val)).take size.val := by
  refine pagesFrom_induction p size ?_ ?_ h
  · intro cursor page _ hf _ k q hq
    cases k with
    | zero =>
      cases hq
      rw [Nat.zero_mul, List.drop_zero, rows_eq_take hf]
    | succ k => cases hq
  · intro cursor page next _ hf hn _ _ ih k q hq
    cases k with
    | zero =>
      cases hq
      rw [Nat.zero_mul, List.drop_zero, rows_eq_take hf]
    | succ k =>
      rw [ih k q hq, matchesFrom_next hf hn, List.drop_drop, Nat.succ_mul, Nat.add_comm]

theorem cursor_of_pagesFrom (p : Predicate) (size : PageSize) (h : cursor.position ≤ l.length) :
    (l.pagesFrom p size cursor)[0]?.map Prod.fst = some cursor := by
  refine pagesFrom_induction p size ?_ ?_ h
  · intro cursor page _ _ _
    rfl
  · intro cursor page next _ _ _ _ _ _
    rfl

/-- Each page is fetched at its cursor, and the one after it at its next cursor. -/
theorem fetch_of_getElem?_pagesFrom (p : Predicate) (size : PageSize)
    (h : cursor.position ≤ l.length) : ∀ (k : Nat) (q : Cursor × Page),
      (l.pagesFrom p size cursor)[k]? = some q → l.fetch p size q.1 = .ok q.2 ∧
        q.2.next? = (l.pagesFrom p size cursor)[k + 1]?.map Prod.fst := by
  refine pagesFrom_induction p size ?_ ?_ h
  · intro cursor page _ hf hn k q hq
    cases k with
    | zero =>
      cases hq
      exact ⟨hf, hn⟩
    | succ k => cases hq
  · intro cursor page next _ hf hn _ hle ih k q hq
    cases k with
    | zero =>
      cases hq
      exact ⟨hf, hn.trans (cursor_of_pagesFrom p size hle).symm⟩
    | succ k => exact ih k q hq

theorem length_pages (l : Log) (p : Predicate) (size : PageSize) : (l.pages p size).length =
    pageCount size (l.query p).length (EndsInMatch p l.messages) :=
  length_pagesFrom p size (start_position_le l)

/-- The rows of a page, by its number. -/
theorem rows_of_getElem?_pages {k : Nat} {q : Cursor × Page} (h : (l.pages p size)[k]? = some q) :
    q.2.rows = ((l.query p).drop (k * size.val)).take size.val :=
  rows_of_getElem?_pagesFrom p size (start_position_le l) k q h

/-- There is a page for every match. -/
theorem lt_length_pages {k : Nat} (h : k * size.val < (l.query p).length) :
    k < (l.pages p size).length := by
  have hle := (Nat.le_div_iff_mul_le size.pos).2 (Nat.le_of_lt h)
  rw [length_pages, pageCount]
  split
  · rename_i hfull
    have hne : k ≠ (l.query p).length / size.val := by
      rintro rfl
      rw [Nat.div_mul_cancel hfull.2.1] at h
      exact Nat.lt_irrefl _ h
    omega
  · omega

/-- Behind a page that has room for more matches there is none. -/
theorem length_pages_le {k : Nat} (h : (l.query p).length < (k + 1) * size.val) :
    (l.pages p size).length ≤ k + 1 := by
  have hle := Nat.div_lt_of_lt_mul ((Nat.mul_comm (k + 1) size.val) ▸ h)
  rw [length_pages, pageCount]
  omega

/-- Every page but the last one is full, and the last one holds what is left. -/
theorem length_rows_of_lt {k : Nat} (hk : k < (l.pages p size).length) :
    (((l.query p).drop (k * size.val)).take size.val).length =
      if k + 1 < (l.pages p size).length then size.val
      else (l.query p).length - size.val * ((l.pages p size).length - 1) := by
  rw [List.length_take, List.length_drop]
  split
  · rename_i hmore
    have hfull := mt (length_pages_le (l := l) (p := p)) (Nat.not_le.2 hmore)
    rw [Nat.succ_mul] at hfull
    omega
  · have hlast : (l.pages p size).length = k + 1 := by omega
    have hall := mt lt_length_pages (Nat.lt_irrefl (l.pages p size).length)
    rw [hlast, Nat.succ_mul] at hall
    rw [hlast, Nat.add_sub_cancel, Nat.mul_comm size.val]
    omega

end FeedQuery.Log
