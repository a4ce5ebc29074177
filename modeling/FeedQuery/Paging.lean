import FeedQuery.Json.Record
import FeedQuery.Json.Variant
import FeedQuery.Message

/-!
Pages of a log: their size, the cursor where one starts, and what a fetch gives.
-/
namespace FeedQuery

/-- How many records a page holds at most. -/
structure PageSize where
  val : Nat
  pos : 0 < val
  deriving DecidableEq

namespace PageSize

def ofNat? (n : Nat) : Option PageSize := if h : 0 < n then some ⟨n, h⟩ else none

def text (s : PageSize) : String := toString s.val

def toJson (s : PageSize) : Json := .number (.ofNat s.val)

def decode : Decoder PageSize := fun nesting d => do
  let n ← Decoder.word expected nesting d
  match ofNat? n.toNat with
  | some size => return size
  | none => throw (.mismatch (.wrongValue 0 expected))
where
  expected := "a nonzero usize"

def ofText (text : String) : Except DecodeError PageSize := Decoder.run decode text

end PageSize

/-- A place in the scan order of a log. -/
inductive Cursor where
  | start
  /-- After so many entries. -/
  | offset (n : Nat)
  deriving DecidableEq, Repr

namespace Cursor

def position : Cursor → Nat
  | .start => 0
  | .offset n => n

@[simp] theorem position_start : start.position = 0 := rfl

@[simp] theorem position_offset (n : Nat) : (offset n).position = n := rfl

/-- A cursor as error messages show it. -/
def text : Cursor → String
  | .start => "None"
  | .offset n => "Offset \x7b offset: " ++ toString n ++ " \x7d"

def toJson : Cursor → Json
  | .start => .string "None"
  | .offset n => .object [("Offset", .object [("offset", .number (.ofNat n))])]

def record : Record (Option UInt64) Cursor where
  name := "struct variant Cursor::Offset"
  fields := [⟨"offset", Option.isSome, fun n d _ => return some (← Decoder.word "usize" n d),
    false⟩]
  empty := none
  finish p := (Record.require "offset" p).map fun n => .offset n.toNat

def decode : Decoder Cursor :=
  .variant [("None", Decoder.unitCase .start), ("Offset", Decoder.contentCase record.decode)]

def ofText (text : String) : Except DecodeError Cursor := Decoder.run decode text

end Cursor

/-- What a fetch gives. -/
structure Page where
  rows : List Message
  /-- Where the next fetch goes on, if there is more to scan. -/
  next? : Option Cursor
  reachedEnd : Bool

namespace Page

def rowCount (p : Page) : Nat := p.rows.length

def isLast (p : Page) : Bool := p.reachedEnd || p.next?.isNone

end Page

end FeedQuery
