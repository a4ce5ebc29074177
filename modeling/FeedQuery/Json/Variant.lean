import FeedQuery.Json.Decode

/-!
Decoding of variants: a bare name, or an object whose only key is the name and whose value is the
content.
-/
namespace FeedQuery.Decoder

/-- What follows the content of a variant in its object. -/
def endVariant : List (Quotation × Draft) → Option Flaw → Except DecodeError Unit
  | [], none => .ok ()
  | [], some flaw => .error flaw.error
  | _ :: _, _ => .error .malformed

/-- The case of a name, or which names there are. -/
def findCase {α : Type} (cases : List (String × α)) (name : String) : Except DecodeError α :=
  match cases.lookup name with
  | some a => .ok a
  | none => .error (.mismatch (.unknownVariant name (cases.map Prod.fst)))

/-- Reads a variant. Each case reads its content, which a bare name lacks. -/
def variant {α : Type} (cases : List (String × (Nat → Option Draft → Except DecodeError α))) :
    Decoder α
  | nesting, .string q => do
    let content ← findCase cases (← q.decode)
    content nesting none
  | 0, .object _ _ => .error .tooDeep
  | _ + 1, .object [] flaw? => .error ((flaw?.map Flaw.error).getD .malformed)
  | nesting + 1, .object ((key, d) :: members) flaw? => do
    let content ← findCase cases (← key.decode)
    let a ← content nesting (some d)
    endVariant members flaw?
    return a
  | _, .broken .ended => .error .cutOff
  | _, _ => .error .malformed

/-- A case without content, which an object gives as null. -/
def unitCase {α : Type} (a : α) : Nat → Option Draft → Except DecodeError α
  | _, none => .ok a
  | _, some .null => .ok a
  | _, some d => d.reject "unit"

/-- A case with content, which a bare name lacks. -/
def contentCase {α : Type} (content : Decoder α) : Nat → Option Draft → Except DecodeError α
  | _, none => .error (.mismatch (.wrongType .unitVariant "struct variant"))
  | nesting, some d => content nesting d

end FeedQuery.Decoder
