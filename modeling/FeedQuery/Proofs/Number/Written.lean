import FeedQuery.Number.Shortest
import FeedQuery.Proofs.Number.Scan

/-!
The numeral written for a number denotes that number. For a binary64 number this is how a numeral
is chosen, but for the last resort, the exact expansion, which is never rounded.
-/
namespace FeedQuery

theorem roundDiv_mul (k : Nat) {den : Nat} (h : 0 < den) : roundDiv (k * den) den = k := by
  simp only [roundDiv, Nat.mul_div_cancel k h, Nat.mul_mod_left, Nat.mul_zero, h, true_or,
    ↓reduceIte]

namespace Binary64

theorem ofParts?_eq (x : Binary64) : ofParts? x.negative x.significand x.exponent = some x := by
  rw [ofParts?, dif_pos ⟨x.significand_lt, x.exponent_le, x.normal⟩]

/-- The exponent is what the magnitude has more binary digits than a significand. -/
theorem log2_magnitude (x : Binary64) : x.magnitude.log2 - 52 = x.exponent := by
  have hlt : x.significand < 2 ^ 53 := x.significand_lt
  rcases Nat.eq_zero_or_pos x.significand with hzero | hpos
  · have hexp : x.exponent = 0 := by
      rcases x.normal with h | h
      · exact h
      · rw [hzero] at h
        exact absurd h (by decide)
    rw [magnitude, hzero, hexp]
    rfl
  · rw [magnitude, Nat.shiftLeft_eq]
    rcases x.normal with hexp | hnormal
    · rw [hexp, Nat.pow_zero, Nat.mul_one]
      have := (Nat.log2_lt (Nat.ne_of_gt hpos)).2 hlt
      omega
    · have hle : 2 ^ 52 ≤ x.significand := hnormal
      have hlog : (x.significand * 2 ^ x.exponent).log2 = 52 + x.exponent := by
        rw [Nat.log2_eq_iff (Nat.ne_of_gt (Nat.mul_pos hpos (Nat.two_pow_pos _))), Nat.pow_add,
          Nat.add_right_comm, Nat.pow_add]
        exact ⟨Nat.mul_le_mul_right _ hle, Nat.mul_lt_mul_of_pos_right hlt (Nat.two_pow_pos _)⟩
      omega

/-- A number of units that a binary64 number has is not rounded. -/
theorem ofUnits?_magnitude_mul (x : Binary64) {den : Nat} (h : 0 < den) :
    ofUnits? x.negative (x.magnitude * den) den = some x := by
  have hexact : x.magnitude * den = x.significand * (den <<< x.exponent) := by
    rw [magnitude, Nat.shiftLeft_eq, Nat.shiftLeft_eq, Nat.mul_assoc, Nat.mul_comm den]
  have hpos : 0 < den <<< x.exponent := by
    rw [Nat.shiftLeft_eq]
    exact Nat.mul_pos h (Nat.two_pow_pos _)
  simp only [ofUnits?, Nat.mul_div_cancel _ h, log2_magnitude]
  rw [hexact, roundDiv_mul _ hpos, if_pos x.significand_lt]
  exact ofParts?_eq x

end Binary64

namespace Numeral

theorem isDigits_ofDigits (n : Nat) : IsDigits (ofDigits n) :=
  ⟨Nat.toDigits_ne_nil, fun _ => Nat.isDigit_of_mem_toDigits (by decide) (by decide)⟩

@[simp] theorem digits_ofDigits (n : Nat) : digits (ofDigits n) = n := Nat.ofDigitChars_ten_toDigits

/-- Digits that start with zero are the zero. -/
theorem ofDigits_of_head? (n : Nat) (h : (ofDigits n).head? = some '0') : ofDigits n = ['0'] := by
  induction n using Nat.strongRecOn with
  | ind n ih =>
    rw [ofDigits, Nat.toDigits_eq_if (by decide)] at h ⊢
    split at h
    · rename_i hlt
      rw [if_pos hlt]
      exact congrArg (· :: []) (Option.some.inj h)
    · rename_i hge
      have hhead : (ofDigits (n / 10)).head? = some '0' := by
        obtain ⟨d, ds, hd⟩ := List.exists_cons_of_ne_nil (isDigits_ofDigits (n / 10)).1
        rw [ofDigits] at hd ⊢
        rw [hd] at h ⊢
        exact h
      have hzero := congrArg digits (ih (n / 10) (by omega) hhead)
      rw [digits_ofDigits] at hzero
      have : n / 10 = 0 := hzero
      omega

theorem wellFormed_of_digits (negative : Bool) (count : Nat) {e : Option (Bool × List Char)}
    (he : ∀ e' ∈ e, IsDigits e'.2) : WellFormed ⟨negative, ofDigits count, [], e⟩ where
  whole := isDigits_ofDigits count
  noZero := ofDigits_of_head? count
  fraction := fun h => absurd rfl h
  exponent := he

theorem wellFormed_of_readsAs {n : Numeral} {x : Number} (h : n.readsAs x = true) :
    n.WellFormed := by
  unfold readsAs at h
  split at h
  · rename_i m hscan
    rw [Bool.and_eq_true, beq_iff_eq] at h
    exact h.1 ▸ wellFormed_of_scan hscan
  · cases h

theorem number?_of_readsAs {n : Numeral} {x : Number} (h : n.readsAs x = true) :
    n.number? = some x := by
  unfold readsAs at h
  split at h
  · rw [Bool.and_eq_true, beq_iff_eq, beq_iff_eq] at h
    exact h.2
  · cases h

end Numeral

namespace Binary64

variable {x : Binary64}

theorem ofDecimal?_negSucc (negative : Bool) {digits down places : Nat} (hne : digits ≠ 0)
    (hdown : down + 1 = places) (hle : places ≤ 1100) :
    ofDecimal? negative digits (.negSucc down) =
      ofUnits? negative (digits * unitsPerOne) (Nat.pow 10 places) := by
  subst hdown
  rw [ofDecimal?, if_neg hne]
  exact if_neg (by omega)

theorem wellFormed_expansion (x : Binary64) : x.expansion.WellFormed := by
  refine Numeral.wellFormed_of_digits _ _ ?_
  rintro _ ⟨⟩
  exact Numeral.isDigits_ofDigits 1074

theorem number?_expansion (h : x.significand ≠ 0) : x.expansion.number? = some (.float x) := by
  have hmag : x.magnitude ≠ 0 := by
    rw [magnitude, Nat.shiftLeft_eq]
    exact Nat.mul_ne_zero h (Nat.ne_of_gt (Nat.two_pow_pos _))
  have hscale : x.expansion.scale = .negSucc 1073 := by
    simp only [Numeral.scale, expansion, Numeral.digits_ofDigits]
    rfl
  have hdigits : Numeral.digits (x.expansion.whole ++ x.expansion.fraction) =
      x.magnitude * Nat.pow 5 1074 := by
    rw [expansion, List.append_nil, Numeral.digits_ofDigits]
  have hne : ∀ k, x.magnitude * Nat.pow 5 k ≠ 0 := fun k =>
    Nat.mul_ne_zero hmag (Nat.ne_of_gt (Nat.pow_pos (by decide)))
  have hexact : ∀ k, ofUnits? x.negative (x.magnitude * Nat.pow 5 k * 1 <<< k) (Nat.pow 10 k) =
      some x := by
    intro k
    have hunits : x.magnitude * Nat.pow 5 k * 1 <<< k = x.magnitude * Nat.pow 10 k := by
      rw [Nat.shiftLeft_eq, Nat.one_mul, Nat.mul_assoc]
      exact congrArg (x.magnitude * ·) (Nat.mul_pow 5 2 k).symm
    rw [hunits]
    exact ofUnits?_magnitude_mul x (Nat.pow_pos (by decide))
  have hfloat : x.expansion.float? = some x := by
    rw [Numeral.float?, hdigits, hscale, ofDecimal?_negSucc _ (hne 1074)
      (show 1073 + 1 = 1074 from rfl) (by decide), unitsPerOne]
    -- no step may compute the powers
    generalize 1074 = places
    exact hexact places
  have hscaled : ¬ (x.expansion.fraction = [] ∧ x.expansion.exponent = none) := nofun
  rw [Numeral.number?, if_neg hscaled, hfloat]
  rfl

theorem eq_zero_of_significand_eq_zero (h : x.significand = 0) : x = zero x.negative := by
  rcases x with ⟨negative, significand, exponent, hlt, hle, hnormal⟩
  cases h
  rcases hnormal with rfl | hnormal
  · rfl
  · exact absurd hnormal (by decide)

theorem numeral_spec (layout : Layout) (x : Binary64) :
    (x.numeral layout).WellFormed ∧ (x.numeral layout).number? = some (.float x) := by
  unfold numeral
  split
  · rename_i hzero
    refine ⟨⟨⟨List.cons_ne_nil _ _, by simp⟩, fun _ => rfl,
      fun _ => ⟨List.cons_ne_nil _ _, by simp⟩, nofun⟩, ?_⟩
    rw [eq_zero_of_significand_eq_zero hzero]
    rfl
  · rename_i hne
    cases hfind : (x.candidates layout).find? (·.readsAs (.float x)) with
    | some n =>
      have hreads := List.find?_some hfind
      exact ⟨Numeral.wellFormed_of_readsAs hreads, Numeral.number?_of_readsAs hreads⟩
    | none => exact ⟨wellFormed_expansion x, number?_expansion hne⟩

end Binary64

namespace Number

theorem wellFormed_numeral (x : Number) : x.numeral.WellFormed := by
  cases x with
  | integer i word => exact Numeral.wellFormed_of_digits _ _ nofun
  | float x => exact (x.numeral_spec .json).1

/-- A number is read back from the numeral written for it. -/
theorem number?_numeral (x : Number) : x.numeral.number? = some x := by
  cases x with
  | integer i word =>
    have hneg : ∀ h : 0 < i.natAbs ∧ i.natAbs ≤ 0x8000000000000000, i < 0 →
        (.integer (-i.natAbs) (by omega) : Number) = .integer i word := by
      intro h hi
      congr
      omega
    have hpos : ∀ h : i.natAbs < 0x10000000000000000, ¬ i < 0 →
        (.integer i.natAbs (by omega) : Number) = .integer i word := by
      intro h hi
      congr
      omega
    simp only [numeral, Numeral.number?, and_self, ↓reduceIte, Numeral.digits_ofDigits,
      decide_eq_true_eq]
    split
    · rename_i hi
      have hword : 0 < i.natAbs ∧ i.natAbs ≤ 0x8000000000000000 := by omega
      exact (dif_pos hword).trans (congrArg some (hneg hword hi))
    · rename_i hi
      have hword : i.natAbs < 0x10000000000000000 := by omega
      exact (dif_pos hword).trans (congrArg some (hpos hword hi))
  | float x => exact (x.numeral_spec .json).2

end Number

end FeedQuery
