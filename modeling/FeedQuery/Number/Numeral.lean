import FeedQuery.Number.Binary64

/-!
Numerals: numbers as they are written in JSON, their text, and the number each denotes.
-/
namespace FeedQuery

/-- A JSON number: an integer of one signed or unsigned 64-bit word, or a finite binary64. -/
inductive Number where
  | integer (i : Int) (word : -0x8000000000000000 ≤ i ∧ i < 0x10000000000000000)
  | float (x : Binary64)
  deriving DecidableEq

namespace Number

def ofUInt64 (n : UInt64) : Number :=
  .integer n.toNat (by have := n.toNat_lt; omega)

/-- The integer `n`, or the largest word when it is past that. -/
def ofNat (n : Nat) : Number := .integer (min n 0xFFFFFFFFFFFFFFFF : Nat) (by omega)

def toBinary64 : Number → Binary64
  | .integer i _ => .ofInt i
  | .float x => x

/-- Equality of JSON numbers: an integer is never equal to a float, and the two zeros are one. -/
def same : Number → Number → Bool
  | .integer i _, .integer j _ => i == j
  | .float x, .float y => x.same y
  | _, _ => false

end Number

/-- Why a text stops being JSON. `ended` is the end of the text where more is needed; `cutWord`
and `cutNumeral` are that end inside a literal name or a numeral. -/
inductive Flaw where
  | ended
  | cutWord
  | cutNumeral
  | malformed
  deriving DecidableEq, Repr

/-- A written number. No fraction digits means no point; the flag of an exponent is its minus. -/
structure Numeral where
  negative : Bool
  whole : List Char
  fraction : List Char
  exponent : Option (Bool × List Char)
  deriving DecidableEq, Repr

namespace Numeral

def digits (cs : List Char) : Nat := Nat.ofDigitChars 10 cs 0

def exponentChars : Option (Bool × List Char) → List Char
  | none => []
  | some (negative, ds) => 'e' :: (if negative then '-' else '+') :: ds

def fractionChars : List Char → List Char
  | [] => []
  | ds => '.' :: ds

def chars (n : Numeral) : List Char :=
  (if n.negative then ['-'] else []) ++
    (n.whole ++ (fractionChars n.fraction ++ exponentChars n.exponent))

/-- The power of ten by which the digits of the numeral, read as one integer, are scaled. -/
def scale (n : Numeral) : Int :=
  (match n.exponent with
    | none => 0
    | some (true, ds) => -(digits ds : Int)
    | some (false, ds) => digits ds) - n.fraction.length

/-- The nearest binary64. The decimal is rounded once, so this is right to the last place, where a
reader that multiplies the digits by a rounded power of ten may be one place off, as for `3e23`. -/
def float? (n : Numeral) : Option Binary64 :=
  Binary64.ofDecimal? n.negative (digits (n.whole ++ n.fraction)) n.scale

/-- The number denoted: without fraction and exponent the integer itself if it fits a word and is
not a negative zero, else the nearest binary64. None is past the largest finite number. -/
def number? (n : Numeral) : Option Number :=
  if n.fraction = [] ∧ n.exponent = none then
    let count := digits n.whole
    if n.negative then
      if h : 0 < count ∧ count ≤ 0x8000000000000000 then some (.integer (-count) (by omega))
      else n.float?.map .float
    else if h : count < 0x10000000000000000 then some (.integer count (by omega))
    else n.float?.map .float
  else n.float?.map .float

/-- At least one digit. The end of the text in place of the first one is a cut numeral. -/
def scanDigits (cs : List Char) : Except Flaw (List Char × List Char) :=
  match cs with
  | [] => .error .cutNumeral
  | c :: _ =>
    if c.isDigit then .ok (cs.takeWhile Char.isDigit, cs.dropWhile Char.isDigit)
    else .error .malformed

/-- The integer part: a lone zero or digits that do not start with zero. -/
def scanWhole (cs : List Char) : Except Flaw (List Char × List Char) :=
  match cs with
  | '0' :: c :: rest => if c.isDigit then .error .malformed else .ok (['0'], c :: rest)
  | cs => scanDigits cs

def scanFraction (cs : List Char) : Except Flaw (List Char × List Char) :=
  match cs with
  | '.' :: rest => scanDigits rest
  | cs => .ok ([], cs)

def scanSign (cs : List Char) : Bool × List Char :=
  match cs with
  | '-' :: rest => (true, rest)
  | '+' :: rest => (false, rest)
  | cs => (false, cs)

def scanExponent (cs : List Char) : Except Flaw (Option (Bool × List Char) × List Char) :=
  match cs with
  | [] => .ok (none, [])
  | c :: rest =>
    if c = 'e' ∨ c = 'E' then do
      let (negative, rest) := scanSign rest
      let (ds, rest) ← scanDigits rest
      return (some (negative, ds), rest)
    else .ok (none, c :: rest)

/-- Reads the numeral after its sign. -/
def scanUnsigned (negative : Bool) (cs : List Char) : Except Flaw (Numeral × List Char) := do
  let (whole, cs) ← scanWhole cs
  let (fraction, cs) ← scanFraction cs
  let (exponent, cs) ← scanExponent cs
  return (⟨negative, whole, fraction, exponent⟩, cs)

/-- Reads the longest numeral at the front of a text and gives what is left. -/
def scan (cs : List Char) : Except Flaw (Numeral × List Char) :=
  match cs with
  | '-' :: rest => scanUnsigned true rest
  | cs => scanUnsigned false cs

theorem scanDigits_length {cs ds rest : List Char} (h : scanDigits cs = .ok (ds, rest)) :
    rest.length < cs.length := by
  unfold scanDigits at h
  split at h
  · cases h
  · rename_i c tail
    split at h
    · rename_i hc
      cases h
      have := (List.dropWhile_sublist Char.isDigit (l := tail)).length_le
      simp only [List.dropWhile_cons, hc, ↓reduceIte, List.length_cons]
      omega
    · cases h

theorem scanWhole_length {cs ds rest : List Char} (h : scanWhole cs = .ok (ds, rest)) :
    rest.length < cs.length := by
  unfold scanWhole at h
  split at h
  · split at h
    · cases h
    · cases h
      simp
  · exact scanDigits_length h

theorem scanFraction_length {cs ds rest : List Char} (h : scanFraction cs = .ok (ds, rest)) :
    rest.length ≤ cs.length := by
  unfold scanFraction at h
  split at h
  · have := scanDigits_length h
    simp only [List.length_cons]
    omega
  · cases h
    exact Nat.le_refl _

theorem scanSign_length (cs : List Char) : (scanSign cs).2.length ≤ cs.length := by
  unfold scanSign
  split <;> simp

theorem scanExponent_length {cs rest : List Char} {e : Option (Bool × List Char)}
    (h : scanExponent cs = .ok (e, rest)) : rest.length ≤ cs.length := by
  unfold scanExponent at h
  split at h
  · cases h
    exact Nat.le_refl _
  · rename_i c tail
    split at h
    · have hs := scanSign_length tail
      cases hd : scanDigits (scanSign tail).2 with
      | error f => simp [bind, Except.bind, hd] at h
      | ok p =>
        have := scanDigits_length hd
        simp only [bind, Except.bind, hd, pure, Except.pure, Except.ok.injEq, Prod.mk.injEq] at h
        obtain ⟨-, rfl⟩ := h
        simp only [List.length_cons]
        omega
    · cases h
      exact Nat.le_refl _

theorem scanUnsigned_length {negative : Bool} {cs rest : List Char} {n : Numeral}
    (h : scanUnsigned negative cs = .ok (n, rest)) : rest.length < cs.length := by
  unfold scanUnsigned at h
  cases hw : scanWhole cs with
  | error f => simp [bind, Except.bind, hw] at h
  | ok p =>
    cases hf : scanFraction p.2 with
    | error f => simp [bind, Except.bind, hw, hf] at h
    | ok q =>
      cases he : scanExponent q.2 with
      | error f => simp [bind, Except.bind, hw, hf, he] at h
      | ok r =>
        have h1 := scanWhole_length hw
        have h2 := scanFraction_length hf
        have h3 := scanExponent_length he
        simp only [bind, Except.bind, hw, hf, he, pure, Except.pure, Except.ok.injEq,
          Prod.mk.injEq] at h
        obtain ⟨-, rfl⟩ := h
        omega

/-- A numeral is never empty. -/
theorem scan_length {cs rest : List Char} {n : Numeral} (h : scan cs = .ok (n, rest)) :
    rest.length < cs.length := by
  unfold scan at h
  split at h
  · have := scanUnsigned_length h
    simp only [List.length_cons]
    omega
  · exact scanUnsigned_length h

end Numeral

end FeedQuery
