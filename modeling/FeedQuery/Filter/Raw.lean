import FeedQuery.Filter.Position
import FeedQuery.Json.Print
import FeedQuery.Json.Record

/-!
Filters in wire form: every field optional, nothing checked yet. Their JSON form and its decoding.
-/
namespace FeedQuery

/-- A filter node as a client sends it. -/
structure RawFilter where
  and? : Option (List RawFilter)
  or? : Option (List RawFilter)
  operator? : Option String
  value? : Option Value
  values? : Option (List Value)

namespace RawFilter

instance : Inhabited RawFilter := ⟨⟨none, none, none, none, none⟩⟩

def field (name : String) (j? : Option Json) : List (String × Json) :=
  (j?.map fun j => (name, j)).toList

/-- The fields of a leaf or of a combinator that are no children. -/
def ownFields (operator? : Option String) (value? : Option Value) (values? : Option (List Value)) :
    List (String × Json) :=
  field "operator" (operator?.map .string) ++
    (field "value" (value?.map Value.json) ++
      field "values" (values?.map fun vs => .array (vs.map Value.json)))

mutual

/-- The JSON form: absent fields are left out. -/
def toJson : RawFilter → Json
  | ⟨some cs, some ds, operator?, value?, values?⟩ =>
    .object (("and", .array (childrenJson cs)) :: ("or", .array (childrenJson ds)) ::
      ownFields operator? value? values?)
  | ⟨some cs, none, operator?, value?, values?⟩ =>
    .object (("and", .array (childrenJson cs)) :: ownFields operator? value? values?)
  | ⟨none, some ds, operator?, value?, values?⟩ =>
    .object (("or", .array (childrenJson ds)) :: ownFields operator? value? values?)
  | ⟨none, none, operator?, value?, values?⟩ => .object (ownFields operator? value? values?)

def childrenJson : List RawFilter → List Json
  | [] => []
  | f :: fs => f.toJson :: childrenJson fs

end

/-- The fields of a filter read so far. A field that was given as null is there but empty. -/
structure Partial where
  and? : Option (Option (List RawFilter))
  or? : Option (Option (List RawFilter))
  operator? : Option (Option String)
  value? : Option (Option Value)
  values? : Option (Option (List Value))

def Partial.finish (p : Partial) : RawFilter :=
  ⟨p.and?.join, p.or?.join, p.operator?.join, p.value?.join, p.values?.join⟩

/-- How a filter is read, given how its children are. -/
def record (children : Draft → Except DecodeError (Option (List RawFilter))) :
    Record Partial RawFilter where
  name := "struct FilterInput"
  fields := [
    ⟨"and", (·.and?.isSome), fun _ d p => do return { p with and? := some (← children d) }, true⟩,
    ⟨"or", (·.or?.isSome), fun _ d p => do return { p with or? := some (← children d) }, true⟩,
    ⟨"operator", (·.operator?.isSome), fun n d p => do
      return { p with operator? := some (← Decoder.string.optional n d) }, true⟩,
    ⟨"value", (·.value?.isSome), fun n d p => do
      return { p with value? := some (← Decoder.value.optional n d) }, true⟩,
    ⟨"values", (·.values?.isSome), fun n d p => do
      return { p with values? := some (← Decoder.value.list.optional n d) }, true⟩]
  empty := ⟨none, none, none, none, none⟩
  finish p := .ok p.finish

mutual

/-- Reads a filter. Each level of the tree opens two containers: the node and its list. -/
def decode : Nat → Draft → Except DecodeError RawFilter
  | 0, d => (record fun _ => .error .tooDeep).decode 0 d
  | nesting + 1, d => (record (decodeChildren nesting)).decode (nesting + 1) d

def decodeChildren : Nat → Draft → Except DecodeError (Option (List RawFilter))
  | _, .null => .ok none
  | 0, .array _ _ => .error .tooDeep
  | nesting + 1, .array items flaw? => (Draft.readItems (decode nesting) items flaw?).map some
  | _, d => d.reject "a sequence"

end

def ofText (text : String) : Except DecodeError RawFilter := Decoder.run decode text

end RawFilter

end FeedQuery
