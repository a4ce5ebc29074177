/-!
Decimal texts of 64-bit words.
-/
namespace FeedQuery.Text

/-- A plus sign in front of digits means nothing. -/
def dropPlus : List Char → List Char
  | '+' :: cs => cs
  | cs => cs

/-- The word that a text denotes: an optional plus and at least one digit, no more than 64 bits. -/
def word? (s : String) : Option Nat :=
  let cs := dropPlus s.toList
  if cs ≠ [] ∧ cs.all Char.isDigit ∧ Nat.ofDigitChars 10 cs 0 < UInt64.size then
    some (Nat.ofDigitChars 10 cs 0)
  else none

end FeedQuery.Text
