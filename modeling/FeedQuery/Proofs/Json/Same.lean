import FeedQuery.Json.Basic

/-!
Equal JSON values. They have equal texts, fields and items.
-/
namespace FeedQuery

namespace Number

theorem same_refl (n : Number) : n.same n = true := by
  cases n with
  | integer i h => exact beq_self_eq_true i
  | float x => exact (Binary64.same_iff x x).2 rfl

end Number

namespace Json

variable {j k : Json} {xs ys : List Json} {fs gs : List (String × Json)}

mutual

theorem same_refl : (j : Json) → j.same j = true
  | .null => rfl
  | .bool b => beq_self_eq_true b
  | .number n => n.same_refl
  | .string s => beq_self_eq_true s
  | .array xs => sameItems_refl xs
  | .object fs => sameFields_refl fs

theorem sameItems_refl : (xs : List Json) → sameItems xs xs = true
  | [] => rfl
  | x :: xs => by rw [sameItems, same_refl x, sameItems_refl xs, Bool.true_and]

theorem sameFields_refl : (fs : List (String × Json)) → sameFields fs fs = true
  | [] => rfl
  | (key, x) :: fs => by
    rw [sameFields, same_refl x, sameFields_refl fs, beq_self_eq_true, Bool.true_and,
      Bool.true_and]

end

theorem text?_eq_of_same (h : j.same k = true) : j.text? = k.text? := by
  fun_cases same j k <;> simp_all [text?, same]

theorem isNull_eq_of_same (h : j.same k = true) : j.isNull = k.isNull := by
  fun_cases same j k <;> simp_all [isNull, same]

/-- What two fields hold, if equal values or nothing. -/
def SameField : Option Json → Option Json → Prop := Option.Rel fun v w => v.same w = true

theorem sameField_lookup (h : sameFields fs gs = true) (key : String) :
    SameField (fs.lookup key) (gs.lookup key) := by
  induction fs generalizing gs with
  | nil =>
    cases gs with
    | nil => exact .none
    | cons g gs => cases h
  | cons f fs ih =>
    cases gs with
    | nil => cases h
    | cons g gs =>
      obtain ⟨name, v⟩ := f
      obtain ⟨name', w⟩ := g
      simp only [sameFields, Bool.and_eq_true, beq_iff_eq] at h
      obtain ⟨⟨rfl, hvalue⟩, hfields⟩ := h
      rw [List.lookup_cons, List.lookup_cons]
      cases key == name with
      | true => exact .some hvalue
      | false => exact ih hfields

/-- Equal values have equal fields. -/
theorem sameField_get? (h : j.same k = true) (key : String) :
    SameField (j.get? key) (k.get? key) := by
  fun_cases same j k with
  | case6 fs gs => exact sameField_lookup h key
  | case7 => simp_all [same]
  | _ => exact .none

namespace SameField

variable {v? w? : Option Json}

theorem bind_text? (h : SameField v? w?) : v?.bind text? = w?.bind text? := by
  cases h with
  | none => rfl
  | some h => exact text?_eq_of_same h

theorem all_isNull (h : SameField v? w?) : v?.all isNull = w?.all isNull := by
  cases h with
  | none => rfl
  | some h => exact isNull_eq_of_same h

theorem bind_get? (h : SameField v? w?) (key : String) :
    SameField (v?.bind (get? key)) (w?.bind (get? key)) := by
  cases h with
  | none => exact .none
  | some h => exact sameField_get? h key

end SameField

theorem any_eq_of_sameItems {P : Json → Bool} (hP : ∀ v w, v.same w = true → P v = P w)
    (h : sameItems xs ys = true) : xs.any P = ys.any P := by
  induction xs generalizing ys with
  | nil =>
    cases ys with
    | nil => rfl
    | cons y ys => cases h
  | cons x xs ih =>
    cases ys with
    | nil => cases h
    | cons y ys =>
      rw [sameItems, Bool.and_eq_true] at h
      rw [List.any_cons, List.any_cons, hP x y h.1, ih h.2]

end Json

end FeedQuery
