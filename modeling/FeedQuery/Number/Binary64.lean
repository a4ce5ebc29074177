/-!
Finite double-precision numbers. The magnitude is a natural number of units of `2 ^ -1074`, kept
as a significand shifted by an exponent in its only normal form, so comparison and rounding are
integer arithmetic.
-/
namespace FeedQuery

/-- A finite binary64 number: a sign and `significand <<< exponent` units of `2 ^ -1074`. -/
structure Binary64 where
  negative : Bool
  significand : Nat
  exponent : Nat
  significand_lt : significand < 1 <<< 53
  exponent_le : exponent ≤ 2045
  normal : exponent = 0 ∨ 1 <<< 52 ≤ significand
  deriving DecidableEq

/-- The integer nearest to `num / den`; a half goes to the even neighbour. -/
def roundDiv (num den : Nat) : Nat :=
  let floor := num / den
  let rest := num % den
  if 2 * rest < den ∨ 2 * rest = den ∧ floor % 2 = 0 then floor else floor + 1

namespace Binary64

/-- How many units of `2 ^ -1074` make one. -/
def unitsPerOne : Nat := 1 <<< 1074

def magnitude (x : Binary64) : Nat := x.significand <<< x.exponent

/-- The number as an integer count of units. The two zeros have the same count. -/
def units (x : Binary64) : Int := if x.negative then -x.magnitude else x.magnitude

def zero (negative : Bool) : Binary64 := ⟨negative, 0, 0, by decide, by decide, .inl rfl⟩

instance : Inhabited Binary64 := ⟨zero false⟩

/-- Equality, order and strict order of the numbers denoted. -/
def same (x y : Binary64) : Bool := x.units == y.units

def le (x y : Binary64) : Bool := decide (x.units ≤ y.units)

def lt (x y : Binary64) : Bool := decide (x.units < y.units)

@[simp] theorem same_iff (x y : Binary64) : x.same y = true ↔ x.units = y.units := by
  simp [same]

@[simp] theorem le_iff (x y : Binary64) : x.le y = true ↔ x.units ≤ y.units := by
  simp [le]

@[simp] theorem lt_iff (x y : Binary64) : x.lt y = true ↔ x.units < y.units := by
  simp [lt]

def ofParts? (negative : Bool) (significand exponent : Nat) : Option Binary64 :=
  if h : significand < 1 <<< 53 ∧ exponent ≤ 2045 ∧ (exponent = 0 ∨ 1 <<< 52 ≤ significand) then
    some ⟨negative, significand, exponent, h.1, h.2.1, h.2.2⟩
  else none

/-- The number nearest to `num / den` units, a tie going to the even significand; none when that
is past the largest finite number. -/
def ofUnits? (negative : Bool) (num den : Nat) : Option Binary64 :=
  let exponent := (num / den).log2 - 52
  let significand := roundDiv num (den <<< exponent)
  if significand < 1 <<< 53 then ofParts? negative significand exponent
  else ofParts? negative (1 <<< 52) (exponent + 1)

/-- The number nearest to `digits * 10 ^ scale`. A positive scale above 400 is past every finite
number and a scale far below the count of digits rounds to zero, so neither power is computed. -/
def ofDecimal? (negative : Bool) (digits : Nat) (scale : Int) : Option Binary64 :=
  if digits = 0 then some (zero negative)
  else match scale with
    | .ofNat up =>
      if 400 < up then none else ofUnits? negative (digits * Nat.pow 10 up * unitsPerOne) 1
    | .negSucc down =>
      if 1100 + digits.log2 < down + 1 then some (zero negative)
      else ofUnits? negative (digits * unitsPerOne) (Nat.pow 10 (down + 1))

/-- The number nearest to an integer; integers past the largest finite number do not occur. -/
def ofInt (i : Int) : Binary64 :=
  (ofUnits? (i < 0) (i.natAbs * unitsPerOne) 1).getD (zero (i < 0))

end Binary64

/-- A binary64 number that may also be an infinity or undefined. -/
inductive Extended where
  | finite (x : Binary64)
  | infinite (negative : Bool)
  | undefined
  deriving DecidableEq

namespace Extended

/-- Order of extended numbers; nothing compares with the undefined one. -/
def le : Extended → Extended → Bool
  | .undefined, _ => false
  | _, .undefined => false
  | .infinite true, _ => true
  | _, .infinite false => true
  | .finite x, .finite y => x.le y
  | _, _ => false

def lt : Extended → Extended → Bool
  | .undefined, _ => false
  | _, .undefined => false
  | .infinite true, .infinite true => false
  | .infinite true, _ => true
  | .infinite false, _ => false
  | .finite x, .finite y => x.lt y
  | .finite _, .infinite negative => !negative

@[simp] theorem le_finite (x y : Binary64) : le (.finite x) (.finite y) = x.le y := rfl

@[simp] theorem lt_finite (x y : Binary64) : lt (.finite x) (.finite y) = x.lt y := rfl

end Extended

end FeedQuery
