import FeedQuery.Json.Decode

/-!
Decoding of records: from an object, whose unknown fields are passed over and whose known fields
may occur once each, or from an array of the fields in their order.
-/
namespace FeedQuery

/-- A field of a record that is being read into a partial record of type `σ`. -/
structure Field (σ : Type) where
  name : String
  /-- Whether the partial record has the field already. -/
  given : σ → Bool
  read : Nat → Draft → σ → Except DecodeError σ
  /-- Whether an array may end before the field. -/
  hasDefault : Bool := false

namespace Field

/-- Reads the members of an object in order, then its end. -/
def readMembers {σ : Type} (fields : List (Field σ)) (nesting : Nat) :
    List (Quotation × Draft) → Option Flaw → σ → Except DecodeError σ
  | [], none, s => .ok s
  | [], some flaw, _ => .error flaw.error
  | (key, d) :: members, flaw?, s => do
    let name ← key.decode
    match fields.find? (·.name == name) with
    | none =>
      d.skip
      readMembers fields nesting members flaw? s
    | some field =>
      if field.given s then throw (.mismatch (.duplicateField name))
      readMembers fields nesting members flaw? (← field.read nesting d s)

/-- Reads the items of an array as the fields from some position on, then its end. -/
def readItems {σ : Type} (nesting : Nat) (expected : String) (position : Nat) :
    List (Field σ) → List Draft → Option Flaw → σ → Except DecodeError σ
  | [], [], none, s => .ok s
  | [], [], some flaw, _ => .error flaw.error
  | [], _ :: _, _, _ => .error .malformed
  | field :: fields, d :: items, flaw?, s => do
    readItems nesting expected (position + 1) fields items flaw? (← field.read nesting d s)
  | _ :: _, [], some flaw, _ => .error flaw.error
  | field :: fields, [], none, s =>
    if field.hasDefault then readItems nesting expected (position + 1) fields [] none s
    else .error (.mismatch (.wrongLength position expected))

end Field

/-- How a record is read: what it is called, its fields, the partial record without any field, and
the record that a partial one makes or its first missing field. -/
structure Record (σ α : Type) where
  name : String
  fields : List (Field σ)
  empty : σ
  finish : σ → Except String α

namespace Record

def lengthText {σ α : Type} (r : Record σ α) : String :=
  r.name ++ " with " ++ toString r.fields.length ++
    (if r.fields.length = 1 then " element" else " elements")

def close {σ α : Type} (r : Record σ α) (s : σ) : Except DecodeError α :=
  (r.finish s).mapError fun name => .mismatch (.missingField name)

def decode {σ α : Type} (r : Record σ α) : Decoder α
  | 0, .array _ _ => .error .tooDeep
  | 0, .object _ _ => .error .tooDeep
  | nesting + 1, .array items flaw? => do
    r.close (← Field.readItems nesting r.lengthText 0 r.fields items flaw? r.empty)
  | nesting + 1, .object members flaw? => do
    r.close (← Field.readMembers r.fields nesting members flaw? r.empty)
  | _, d => d.reject r.name

/-- A required field, or its name when it is missing. -/
def require {α : Type} (name : String) : Option α → Except String α
  | some a => .ok a
  | none => .error name

end Record

end FeedQuery
