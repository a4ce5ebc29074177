import FeedQuery.Number.Numeral
import FeedQuery.Proofs.Outcome

/-!
Reading a numeral undoes writing it: what JSON allows as a numeral is read to its end, whatever
follows that no numeral goes on with, and nothing else is ever read.
-/
namespace FeedQuery.Numeral

variable {n : Numeral} {cs ds rest : List Char}

/-- At least one digit and nothing else. -/
def IsDigits (ds : List Char) : Prop := ds ≠ [] ∧ ∀ c ∈ ds, c.isDigit = true

/-- A text that does not start with a digit. -/
def NoDigit (rest : List Char) : Prop := ∀ c ∈ rest.head?, c.isDigit = false

/-- What JSON allows as a numeral: no superfluous zero in front, and digits behind a point and in
an exponent. -/
structure WellFormed (n : Numeral) : Prop where
  whole : IsDigits n.whole
  noZero : n.whole.head? = some '0' → n.whole = ['0']
  fraction : n.fraction ≠ [] → IsDigits n.fraction
  exponent : ∀ e ∈ n.exponent, IsDigits e.2

/-- A text that no numeral goes on with. -/
structure Delimits (rest : List Char) : Prop where
  noDigit : NoDigit rest
  noPoint : rest.head? ≠ some '.'
  noExponent : ∀ c ∈ rest.head?, ¬ (c = 'e' ∨ c = 'E')

theorem scanDigits_append (hd : IsDigits ds) (hr : NoDigit rest) :
    scanDigits (ds ++ rest) = .ok (ds, rest) := by
  obtain ⟨hne, hds⟩ := hd
  have hrest : rest.takeWhile Char.isDigit = [] ∧ rest.dropWhile Char.isDigit = rest := by
    cases rest with
    | nil => exact ⟨rfl, rfl⟩
    | cons c rest =>
      have hc := hr c rfl
      rw [List.takeWhile_cons_of_neg (by simp [hc]), List.dropWhile_cons_of_neg (by simp [hc])]
      exact ⟨rfl, rfl⟩
  cases ds with
  | nil => exact absurd rfl hne
  | cons d ds =>
    have hd := hds d List.mem_cons_self
    rw [List.cons_append, scanDigits, if_pos hd, ← List.cons_append,
      List.takeWhile_append_of_pos hds, List.dropWhile_append_of_pos hds, hrest.1, hrest.2,
      List.append_nil]

theorem isDigits_of_scanDigits (h : scanDigits cs = .ok (ds, rest)) :
    IsDigits ds ∧ ds ++ rest = cs := by
  unfold scanDigits at h
  split at h
  · cases h
  · rename_i c tail
    split at h
    · rename_i hc
      cases h
      refine ⟨⟨?_, fun d hd => ?_⟩, List.takeWhile_append_dropWhile⟩
      · rw [List.takeWhile_cons_of_pos hc]
        exact List.cons_ne_nil _ _
      · exact (List.all_eq_true.1 (List.all_takeWhile (l := c :: tail))) d hd
    · cases h

theorem scanWhole_append (hd : IsDigits ds) (hz : ds.head? = some '0' → ds = ['0'])
    (hr : NoDigit rest) : scanWhole (ds ++ rest) = .ok (ds, rest) := by
  by_cases hzero : ds.head? = some '0'
  · rw [hz hzero]
    cases rest with
    | nil => rfl
    | cons c rest => simp [scanWhole, hr c rfl]
  · have hne : ∀ c tail, ds ++ rest = '0' :: c :: tail → False := by
      intro c tail he
      cases ds with
      | nil => exact hd.1 rfl
      | cons d ds =>
        obtain ⟨rfl, -⟩ := List.cons.inj he
        exact hzero rfl
    rw [scanWhole]
    · exact scanDigits_append hd hr
    · exact hne

theorem isDigits_of_scanWhole (h : scanWhole cs = .ok (ds, rest)) :
    IsDigits ds ∧ (ds.head? = some '0' → ds = ['0']) := by
  unfold scanWhole at h
  split at h
  · split at h
    · cases h
    · cases h
      exact ⟨⟨List.cons_ne_nil _ _, by simp⟩, fun _ => rfl⟩
  · rename_i hne
    obtain ⟨hds, rfl⟩ := isDigits_of_scanDigits h
    refine ⟨hds, fun hzero => ?_⟩
    cases ds with
    | nil => cases hzero
    | cons d ds =>
      cases hzero
      cases ds with
      | nil => rfl
      | cons d' ds => exact (hne d' (ds ++ rest) rfl).elim

theorem scanFraction_append (hd : ds ≠ [] → IsDigits ds) (hr : NoDigit rest)
    (hpoint : rest.head? ≠ some '.') :
    scanFraction (fractionChars ds ++ rest) = .ok (ds, rest) := by
  cases ds with
  | nil =>
    rw [fractionChars, List.nil_append, scanFraction]
    rintro tail rfl
    exact hpoint rfl
  | cons d ds => exact scanDigits_append (hd (List.cons_ne_nil d ds)) hr

theorem isDigits_of_scanFraction (h : scanFraction cs = .ok (ds, rest)) (hne : ds ≠ []) :
    IsDigits ds := by
  unfold scanFraction at h
  split at h
  · exact (isDigits_of_scanDigits h).1
  · cases h
    exact absurd rfl hne

theorem scanExponent_append {e : Option (Bool × List Char)} (he : ∀ e' ∈ e, IsDigits e'.2)
    (hr : NoDigit rest) (hexp : ∀ c ∈ rest.head?, ¬ (c = 'e' ∨ c = 'E')) :
    scanExponent (exponentChars e ++ rest) = .ok (e, rest) := by
  rcases e with _ | ⟨negative, ds⟩
  · cases rest with
    | nil => rfl
    | cons c rest => rw [exponentChars, List.nil_append, scanExponent, if_neg (hexp c rfl)]
  · have hds := scanDigits_append (he _ rfl) hr
    cases negative <;>
      simp only [exponentChars, scanExponent, scanSign, List.cons_append, true_or, ↓reduceIte,
        Bool.false_eq_true, hds] <;> rfl

theorem isDigits_of_scanExponent {e : Option (Bool × List Char)}
    (h : scanExponent cs = .ok (e, rest)) : ∀ e' ∈ e, IsDigits e'.2 := by
  unfold scanExponent at h
  split at h
  · cases h
    rintro _ ⟨⟩
  · split at h
    · obtain ⟨⟨ds, rest'⟩, hds, hpure⟩ := bind_eq_ok_iff.1 h
      cases hpure
      rintro _ ⟨⟩
      exact (isDigits_of_scanDigits hds).1
    · cases h
      rintro _ ⟨⟩

/-- Behind the digits in front stands no digit. -/
theorem noDigit_fractionChars_append (ds : List Char) {e : Option (Bool × List Char)}
    (hr : NoDigit rest) : NoDigit (fractionChars ds ++ (exponentChars e ++ rest)) := by
  rcases ds with _ | ⟨d, ds⟩
  · rcases e with _ | ⟨negative, ds⟩
    · exact hr
    · rintro _ ⟨⟩
      rfl
  · rintro _ ⟨⟩
    rfl

theorem noDigit_exponentChars_append {e : Option (Bool × List Char)} (hr : NoDigit rest) :
    NoDigit (exponentChars e ++ rest) :=
  noDigit_fractionChars_append [] hr

theorem head?_exponentChars_append {e : Option (Bool × List Char)}
    (hpoint : rest.head? ≠ some '.') : (exponentChars e ++ rest).head? ≠ some '.' := by
  rcases e with _ | ⟨negative, ds⟩
  · exact hpoint
  · rintro ⟨⟩

theorem scanUnsigned_append (h : n.WellFormed) (hr : Delimits rest) :
    scanUnsigned n.negative (n.whole ++ (fractionChars n.fraction ++
      (exponentChars n.exponent ++ rest))) = .ok (n, rest) := by
  rw [scanUnsigned, scanWhole_append h.whole h.noZero (noDigit_fractionChars_append _ hr.noDigit)]
  simp only [bind, Except.bind]
  rw [scanFraction_append h.fraction (noDigit_exponentChars_append hr.noDigit)
    (head?_exponentChars_append hr.noPoint)]
  dsimp only
  rw [scanExponent_append h.exponent hr.noDigit hr.noExponent]
  rfl

/-- A numeral is read back from its text, to which nothing behind it belongs. -/
theorem scan_chars_append (h : n.WellFormed) (hr : Delimits rest) :
    scan (n.chars ++ rest) = .ok (n, rest) := by
  have hscan := scanUnsigned_append h hr
  rw [chars, List.append_assoc, List.append_assoc, List.append_assoc]
  cases hn : n.negative with
  | true =>
    rw [hn] at hscan
    exact hscan
  | false =>
    rw [hn] at hscan
    rw [← hscan]
    simp only [Bool.false_eq_true, ↓reduceIte, List.nil_append]
    rw [scan]
    intro tail he
    obtain ⟨hne, hds⟩ := h.whole
    cases hw : n.whole with
    | nil => exact hne hw
    | cons d ds =>
      rw [hw] at hds he
      obtain ⟨rfl, -⟩ := List.cons.inj he
      cases hds '-' List.mem_cons_self

/-- Only what JSON allows is read as a numeral. -/
theorem wellFormed_of_scan (h : scan cs = .ok (n, rest)) : n.WellFormed := by
  have hunsigned : ∀ {negative : Bool} {cs : List Char},
      scanUnsigned negative cs = .ok (n, rest) → n.WellFormed := by
    intro negative cs h
    obtain ⟨⟨whole, cs₁⟩, hwhole, h⟩ := bind_eq_ok_iff.1 h
    obtain ⟨⟨fraction, cs₂⟩, hfraction, h⟩ := bind_eq_ok_iff.1 h
    obtain ⟨⟨exponent, cs₃⟩, hexponent, h⟩ := bind_eq_ok_iff.1 h
    cases h
    obtain ⟨hdigits, hzero⟩ := isDigits_of_scanWhole hwhole
    exact ⟨hdigits, hzero, isDigits_of_scanFraction hfraction, isDigits_of_scanExponent hexponent⟩
  unfold scan at h
  split at h <;> exact hunsigned h

/-- The text of a numeral starts with a minus sign or a digit. -/
theorem chars_eq_cons (h : n.WellFormed) :
    ∃ c tail, n.chars = c :: tail ∧ (c = '-' ∨ c.isDigit = true) := by
  obtain ⟨hne, hds⟩ := h.whole
  cases hw : n.whole with
  | nil => exact absurd hw hne
  | cons d ds =>
    rw [hw] at hds
    cases hn : n.negative with
    | true => exact ⟨_, _, by rw [chars, hn]; rfl, .inl rfl⟩
    | false => exact ⟨_, _, by rw [chars, hn, hw]; rfl, .inr (hds d List.mem_cons_self)⟩

theorem IsDigits.le_toNat (h : IsDigits ds) {c : Char} (hc : c ∈ ds) : 32 ≤ c.toNat := by
  have hdigit := h.2 c hc
  simp only [Char.isDigit, Bool.and_eq_true, decide_eq_true_eq] at hdigit
  exact Nat.le_trans (by decide) (UInt32.le_iff_toNat_le.1 hdigit.1)

/-- No character of a numeral is a control character. -/
theorem WellFormed.le_toNat_of_mem_chars (h : n.WellFormed) {c : Char} (hc : c ∈ n.chars) :
    32 ≤ c.toNat := by
  simp only [chars, List.mem_append] at hc
  rcases hc with hc | hc | hc | hc
  · split at hc
    · rw [List.mem_singleton.1 hc]
      decide
    · cases hc
  · exact h.whole.le_toNat hc
  · cases hf : n.fraction with
    | nil =>
      rw [hf] at hc
      cases hc
    | cons d ds =>
      rw [hf] at hc
      rcases List.mem_cons.1 hc with rfl | hc
      · decide
      · exact (h.fraction (by rw [hf]; exact List.cons_ne_nil d ds)).le_toNat (hf ▸ hc)
  · cases he : n.exponent with
    | none =>
      rw [he] at hc
      cases hc
    | some e =>
      rw [he] at hc
      rcases List.mem_cons.1 hc with rfl | hc
      · decide
      rcases List.mem_cons.1 hc with rfl | hc
      · split <;> decide
      · exact (h.exponent e he).le_toNat hc

end FeedQuery.Numeral
