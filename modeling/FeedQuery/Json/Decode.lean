import FeedQuery.Json.Basic
import FeedQuery.Json.DecodeError
import FeedQuery.Json.Draft

/-!
Decoding of JSON texts. A decoder meets the parts of a text in their order and reports the first
problem, so a wrong type wins over a flaw behind it. Each container that a decoder opens takes one
from the nesting that is left; a part that is passed over is not limited in depth.
-/
namespace FeedQuery

/-- Reads a value, given how many containers may still be nested in each other. -/
abbrev Decoder (α : Type) := Nat → Draft → Except DecodeError α

/-- How many containers a text may nest. -/
def Decoder.nesting : Nat := 127

namespace Flaw

/-- A flaw met while reading. -/
def error : Flaw → DecodeError
  | .malformed => .malformed
  | .ended | .cutWord | .cutNumeral => .cutOff

/-- A flaw met while passing over a value: a cut numeral there is no numeral. -/
def skipError : Flaw → DecodeError
  | .malformed | .cutNumeral => .malformed
  | .ended | .cutWord => .cutOff

end Flaw

namespace Quotation

def decode (q : Quotation) : Except DecodeError String := q.text.mapError Flaw.error

end Quotation

namespace Numeral

def decode (n : Numeral) : Except DecodeError Number :=
  match n.number? with
  | some x => .ok x
  | none => .error .numberTooLarge

end Numeral

namespace Draft

mutual

/-- Passes over a value: its tokens must be complete, but strings may hold unpaired surrogates and
numbers may be of any size. -/
def skip : Draft → Except DecodeError Unit
  | .string q => skipEnd q.flaw?
  | .array items flaw? => skipItems items flaw?
  | .object members flaw? => skipMembers members flaw?
  | .broken flaw => .error flaw.skipError
  | _ => .ok ()

def skipEnd : Option Flaw → Except DecodeError Unit
  | none => .ok ()
  | some flaw => .error flaw.skipError

def skipItems : List Draft → Option Flaw → Except DecodeError Unit
  | [], flaw? => skipEnd flaw?
  | d :: items, flaw? => do
    d.skip
    skipItems items flaw?

def skipMembers : List (Quotation × Draft) → Option Flaw → Except DecodeError Unit
  | [], flaw? => skipEnd flaw?
  | (key, d) :: members, flaw? => do
    skipEnd key.flaw?
    d.skip
    skipMembers members flaw?

end

def shape : Draft → Except DecodeError Shape
  | .null => .ok .null
  | .bool b => .ok (.boolean b)
  | .number n => n.decode.map .number
  | .string q => q.decode.map .text
  | .array _ _ => .ok .sequence
  | .object _ _ => .ok .map
  | .broken flaw => .error flaw.error

/-- The failure of a decoder that expects another shape. -/
def reject {α : Type} (expected : String) (d : Draft) : Except DecodeError α := do
  throw (.mismatch (.wrongType (← d.shape) expected))

/-- Reads the items of an array in order, then its end. -/
def readItems {α : Type} (item : Draft → Except DecodeError α) :
    List Draft → Option Flaw → Except DecodeError (List α)
  | [], none => .ok []
  | [], some flaw => .error flaw.error
  | d :: items, flaw? => do
    let a ← item d
    return a :: (← readItems item items flaw?)

/-- Reads the members of an object in order, then its end. -/
def readMembers {α : Type} (item : Draft → Except DecodeError α) :
    List (Quotation × Draft) → Option Flaw → Except DecodeError (List (String × α))
  | [], none => .ok []
  | [], some flaw => .error flaw.error
  | (key, d) :: members, flaw? => do
    let name ← key.decode
    let a ← item d
    return (name, a) :: (← readMembers item members flaw?)

/-- Reads any JSON value. -/
def json : Nat → Draft → Except DecodeError Json
  | _, .null => .ok .null
  | _, .bool b => .ok (.bool b)
  | _, .number n => n.decode.map .number
  | _, .string q => q.decode.map .string
  | _, .broken flaw => .error flaw.error
  | 0, .array _ _ => .error .tooDeep
  | 0, .object _ _ => .error .tooDeep
  | nesting + 1, .array items flaw? => (readItems (json nesting) items flaw?).map .array
  | nesting + 1, .object members flaw? => (readMembers (json nesting) members flaw?).map .object

end Draft

namespace Decoder

def value : Decoder Value := fun nesting d => (d.json nesting).map .ofJson

def string : Decoder String
  | _, .string q => q.decode
  | _, d => d.reject "a string"

def bool : Decoder Bool
  | _, .bool b => .ok b
  | _, d => d.reject "a boolean"

/-- Any number, an integer too, rounded to binary64. -/
def float : Decoder Binary64
  | _, .number n => n.decode.map Number.toBinary64
  | _, d => d.reject "f64"

/-- An unsigned 64-bit word; what is expected there is named. -/
def word (expected : String) : Decoder UInt64
  | _, .number n => do
    match ← n.decode with
    | .integer i _ =>
      if i < 0 then throw (.mismatch (.wrongValue i expected)) else return .ofNat i.toNat
    | .float _ => (Draft.number n).reject expected
  | _, d => d.reject expected

/-- A null is an absent value. -/
def optional {α : Type} (item : Decoder α) : Decoder (Option α)
  | _, .null => .ok none
  | nesting, d => (item nesting d).map some

def list {α : Type} (item : Decoder α) : Decoder (List α)
  | 0, .array _ _ => .error .tooDeep
  | nesting + 1, .array items flaw? => Draft.readItems (item nesting) items flaw?
  | _, d => d.reject "a sequence"

/-- Runs a decoder on a whole text: nothing but white space may follow the value. -/
def run {α : Type} (decoder : Decoder α) (text : String) : Except DecodeError α := do
  let (d, more) := Draft.ofText text
  let a ← decoder nesting d
  if more then throw .malformed
  return a

end Decoder

namespace Value

def ofText (text : String) : Except DecodeError Value := Decoder.run Decoder.value text

end Value

end FeedQuery
