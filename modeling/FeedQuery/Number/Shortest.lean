import FeedQuery.Number.Numeral

/-!
The numeral written for a number. A binary64 number gets the fewest digits that read back as it,
of two such the nearer; its exact decimal expansion always reads back and ends the search.
-/
namespace FeedQuery

/-- Which numbers are written without an exponent: those whose first digit stands so many places
before the point (none or a negative count: after it) as this range says. -/
structure Layout where
  lowest : Int
  highest : Int

/-- JSON output writes numbers from `1e-5` up to `1e16` without an exponent. -/
def Layout.json : Layout := ⟨-4, 16⟩

namespace Numeral

def ofDigits (n : Nat) : List Char := Nat.toDigits 10 n

/-- Writes the number whose significant digits start at a place before the point. A number
without an exponent always has a fraction. -/
def ofPlace (layout : Layout) (negative : Bool) (ds : List Char) (place : Int) : Numeral :=
  if place < layout.lowest ∨ layout.highest < place then
    ⟨negative, ds.take 1, ds.drop 1, some (place ≤ 0, ofDigits (place - 1).natAbs)⟩
  else if place ≤ 0 then
    ⟨negative, ['0'], List.replicate (-place).toNat '0' ++ ds, none⟩
  else if ds.length ≤ place.toNat then
    ⟨negative, ds ++ List.replicate (place.toNat - ds.length) '0', ['0'], none⟩
  else
    ⟨negative, ds.take place.toNat, ds.drop place.toNat, none⟩

/-- Writes `coefficient * 10 ^ scale` without superfluous zeros. -/
def ofScaled (layout : Layout) (negative : Bool) (coefficient : Nat) (scale : Int) : Numeral :=
  let ds := ofDigits coefficient
  ofPlace layout negative (ds.reverse.dropWhile (· = '0')).reverse (ds.length + scale)

/-- Whether the text of the numeral is read as this numeral, and that as the given number. -/
def readsAs (n : Numeral) (x : Number) : Bool :=
  match scan n.chars with
  | .ok (m, []) => m == n && n.number? == some x
  | _ => false

end Numeral

namespace Binary64

/-- The place of the first digit of a positive number of units: one for the digit before the
point. -/
def place (units : Nat) : Int :=
  (Numeral.ofDigits (units * Nat.pow 10 400 / unitsPerOne)).length - 400

/-- The neighbours of a number on the decimal grid of `10 ^ scale`, the nearer one first and of
two equally near ones the even one. -/
def neighbours (units : Nat) (scale : Int) : List Nat :=
  let num := if scale < 0 then units * Nat.pow 10 scale.natAbs else units
  let den := if scale < 0 then unitsPerOne else unitsPerOne * Nat.pow 10 scale.natAbs
  let floor := num / den
  if roundDiv num den = floor then [floor, floor + 1] else [floor + 1, floor]

/-- Numerals of one digit, of two, and so on up to seventeen. -/
def candidates (layout : Layout) (x : Binary64) : List Numeral :=
  let place := place x.magnitude
  (List.range 17).flatMap fun count =>
    let scale := place - (count + 1 : Nat)
    (neighbours x.magnitude scale).map fun c => .ofScaled layout x.negative c scale

/-- The number written out exactly as an integer times `10 ^ -1074`. -/
def expansion (x : Binary64) : Numeral :=
  ⟨x.negative, Numeral.ofDigits (x.magnitude * Nat.pow 5 1074), [],
    some (true, Numeral.ofDigits 1074)⟩

def numeral (layout : Layout) (x : Binary64) : Numeral :=
  if x.significand = 0 then ⟨x.negative, ['0'], ['0'], none⟩
  else ((x.candidates layout).find? (·.readsAs (.float x))).getD x.expansion

end Binary64

namespace Number

def numeral : Number → Numeral
  | .integer i _ => ⟨i < 0, Numeral.ofDigits i.natAbs, [], none⟩
  | .float x => x.numeral .json

end Number

end FeedQuery
