import FeedQuery.Number.Shortest

/-!
Lexical elements of JSON: their text, and the reading of a text into them. Reading goes on as far
as the text is made of tokens; a flaw is the last token.
-/
namespace FeedQuery

/-- A piece of a string between quotes: a character, or one half of a surrogate pair that was
written as an escape. -/
inductive Piece where
  | char (c : Char)
  | surrogate (unit : Nat)
  deriving DecidableEq, Repr

/-- A string as written, with the flaw that cuts it short, if any. -/
structure Quotation where
  pieces : List Piece
  flaw? : Option Flaw
  deriving DecidableEq, Repr

inductive Token where
  | null
  | bool (b : Bool)
  | number (n : Numeral)
  | string (s : Quotation)
  | openArray
  | closeArray
  | openObject
  | closeObject
  | comma
  | colon
  | broken (flaw : Flaw)
  deriving DecidableEq, Repr

namespace Piece

def isLeading (unit : Nat) : Bool := 0xD800 ≤ unit && unit < 0xDC00

def isTrailing (unit : Nat) : Bool := 0xDC00 ≤ unit && unit < 0xE000

def ofUnit (unit : Nat) : Piece :=
  if isLeading unit || isTrailing unit then .surrogate unit else .char (Char.ofNat unit)

def hexDigit (n : Nat) : Char := Nat.digitChar n

def hexValue? (c : Char) : Option Nat :=
  if '0' ≤ c ∧ c ≤ '9' then some (c.toNat - 48)
  else if 'a' ≤ c ∧ c ≤ 'f' then some (c.toNat - 87)
  else if 'A' ≤ c ∧ c ≤ 'F' then some (c.toNat - 55)
  else none

def unit? (a b c d : Char) : Option Nat := do
  return ((← hexValue? a) * 16 + (← hexValue? b)) * 256 + ((← hexValue? c) * 16 + (← hexValue? d))

/-- The character that a one-letter escape stands for. -/
def unescape? : Char → Option Char
  | '"' => some '"'
  | '\\' => some '\\'
  | '/' => some '/'
  | 'b' => some '\x08'
  | 'f' => some '\x0c'
  | 'n' => some '\n'
  | 'r' => some '\r'
  | 't' => some '\t'
  | _ => none

/-- The escape of four hexadecimal digits. -/
def unitChars (unit : Nat) : List Char :=
  ['\\', 'u', hexDigit (unit / 4096 % 16), hexDigit (unit / 256 % 16), hexDigit (unit / 16 % 16),
    hexDigit (unit % 16)]

/-- Only quotes, backslashes and control characters are escaped. -/
def chars : Piece → List Char
  | .surrogate unit => unitChars unit
  | .char '"' => ['\\', '"']
  | .char '\\' => ['\\', '\\']
  | .char '\x08' => ['\\', 'b']
  | .char '\x0c' => ['\\', 'f']
  | .char '\n' => ['\\', 'n']
  | .char '\r' => ['\\', 'r']
  | .char '\t' => ['\\', 't']
  | .char c => if c.toNat < 32 then unitChars c.toNat else [c]

/-- The characters of a string whose surrogates come in pairs. An unpaired one is malformed, but
where the string is cut right after a leading one, that flaw counts. -/
def join (flaw? : Option Flaw) : List Piece → Except Flaw (List Char)
  | [] => match flaw? with
    | none => .ok []
    | some flaw => .error flaw
  | .char c :: ps => (join flaw? ps).map (c :: ·)
  | .surrogate unit :: ps =>
    if isTrailing unit then .error .malformed
    else match ps with
      | [] => .error (flaw?.getD .malformed)
      | .char _ :: _ => .error .malformed
      | .surrogate next :: ps =>
        if isTrailing next then
          (join flaw? ps).map
            (Char.ofNat ((unit - 0xD800) * 0x400 + (next - 0xDC00) + 0x10000) :: ·)
        else .error .malformed

end Piece

namespace Quotation

def ofString (s : String) : Quotation := ⟨s.toList.map .char, none⟩

def text (q : Quotation) : Except Flaw String := (Piece.join q.flaw? q.pieces).map String.ofList

def chars (q : Quotation) : List Char := '"' :: (q.pieces.flatMap Piece.chars ++ ['"'])

/-- Reads a string after its opening quote and gives what is left. -/
def scan : List Char → Quotation × List Char
  | [] => (⟨[], some .ended⟩, [])
  | '"' :: rest => (⟨[], none⟩, rest)
  | '\\' :: 'u' :: a :: b :: c :: d :: rest =>
    match Piece.unit? a b c d with
    | none => (⟨[], some .malformed⟩, [])
    | some unit =>
      let (q, rest) := scan rest
      (⟨.ofUnit unit :: q.pieces, q.flaw?⟩, rest)
  | '\\' :: 'u' :: rest =>
    (⟨[], some (if (String.ofList rest).utf8ByteSize < 4 then .ended else .malformed)⟩, [])
  | '\\' :: c :: rest =>
    match Piece.unescape? c with
    | none => (⟨[], some .malformed⟩, [])
    | some c =>
      let (q, rest) := scan rest
      (⟨.char c :: q.pieces, q.flaw?⟩, rest)
  | ['\\'] => (⟨[], some .ended⟩, [])
  | c :: rest =>
    if c.toNat < 32 then (⟨[], some .malformed⟩, [])
    else
      let (q, rest) := scan rest
      (⟨.char c :: q.pieces, q.flaw?⟩, rest)

theorem scan_length (cs : List Char) : (scan cs).2.length ≤ cs.length := by
  fun_induction scan cs <;> simp_all <;> omega

end Quotation

namespace Token

def wordChars : Bool → List Char
  | true => ['t', 'r', 'u', 'e']
  | false => ['f', 'a', 'l', 's', 'e']

def chars : Token → List Char
  | .null => ['n', 'u', 'l', 'l']
  | .bool b => wordChars b
  | .number n => n.chars
  | .string q => q.chars
  | .openArray => ['[']
  | .closeArray => [']']
  | .openObject => ['{']
  | .closeObject => ['}']
  | .comma => [',']
  | .colon => [':']
  | .broken _ => []

/-- The white space of JSON, between tokens. -/
def isBlank (c : Char) : Bool := c = ' ' || c = '\t' || c = '\n' || c = '\r'

/-- Reads the rest of a literal name. -/
def scanWord (token : Token) : List Char → List Char → Except Flaw (Token × List Char)
  | [], cs => .ok (token, cs)
  | _ :: _, [] => .error .cutWord
  | w :: ws, c :: cs => if w = c then scanWord token ws cs else .error .malformed

/-- Reads the token that starts with a character and gives what is left. -/
def scanFrom (c : Char) (cs : List Char) : Except Flaw (Token × List Char) :=
  match c with
  | '[' => .ok (.openArray, cs)
  | ']' => .ok (.closeArray, cs)
  | '{' => .ok (.openObject, cs)
  | '}' => .ok (.closeObject, cs)
  | ',' => .ok (.comma, cs)
  | ':' => .ok (.colon, cs)
  | '"' => let (q, rest) := Quotation.scan cs; .ok (.string q, rest)
  | 'n' => scanWord .null ['u', 'l', 'l'] cs
  | 't' => scanWord (.bool true) ['r', 'u', 'e'] cs
  | 'f' => scanWord (.bool false) ['a', 'l', 's', 'e'] cs
  | c =>
    if c = '-' || c.isDigit then
      (Numeral.scan (c :: cs)).map fun (n, rest) => (.number n, rest)
    else .error .malformed

theorem scanWord_length {token t : Token} {ws cs rest : List Char}
    (h : scanWord token ws cs = .ok (t, rest)) : rest.length ≤ cs.length := by
  fun_induction scanWord token ws cs with
  | case1 => cases h; exact Nat.le_refl _
  | case2 => cases h
  | case3 w cs ws ih =>
    have := ih h
    simp only [List.length_cons]
    omega
  | case4 => cases h

theorem scanFrom_length {c : Char} {cs rest : List Char} {t : Token}
    (h : scanFrom c cs = .ok (t, rest)) : rest.length ≤ cs.length := by
  unfold scanFrom at h
  split at h
  case h_7 =>
    simp only [Except.ok.injEq, Prod.mk.injEq] at h
    obtain ⟨-, rfl⟩ := h
    exact Quotation.scan_length cs
  case h_8 | h_9 | h_10 => exact scanWord_length h
  case h_11 =>
    split at h
    · cases hn : Numeral.scan (c :: cs) with
      | error f => simp [hn, Except.map] at h
      | ok p =>
        have := Numeral.scan_length hn
        simp only [hn, Except.map, Except.ok.injEq, Prod.mk.injEq] at h
        obtain ⟨-, rfl⟩ := h
        simp only [List.length_cons] at this
        omega
    · cases h
  all_goals
    simp only [Except.ok.injEq, Prod.mk.injEq] at h
    obtain ⟨-, rfl⟩ := h
    exact Nat.le_refl _

/-- The tokens of a text. -/
def scan : List Char → List Token
  | [] => []
  | c :: cs =>
    if isBlank c then scan cs
    else match _h : scanFrom c cs with
      | .error flaw => [.broken flaw]
      | .ok (token, rest) => token :: scan rest
termination_by cs => cs.length
decreasing_by
  · simp
  · have := scanFrom_length _h
    simp only [List.length_cons]
    omega

end Token

end FeedQuery
