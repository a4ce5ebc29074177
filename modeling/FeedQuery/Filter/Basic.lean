import FeedQuery.Filter.Raw

/-!
Filters with exactly one shape a node, and the check that makes them from wire form.
-/
namespace FeedQuery

/-- One operator application; its name is not checked. -/
structure Leaf where
  operator : String
  value? : Option Value
  values? : Option (List Value)

inductive Filter where
  | combine (c : Combinator) (children : List Filter)
  | leaf (l : Leaf)

/-- A wire node that sets none or several of the fields that give a node its shape. -/
structure ShapeError where
  position : Position
  found : List String
  deriving DecidableEq, Repr

namespace ShapeError

def foundText : List String → String
  | [] => "none"
  | names => ", ".intercalate names

def text (e : ShapeError) : String :=
  "Filter node at " ++ e.position.render ++ " must set exactly one of and/or/operator, found " ++
    foundText e.found

end ShapeError

namespace RawFilter

/-- The shape-giving fields that a node sets. -/
def populated (f : RawFilter) : List String :=
  (f.and?.map fun _ => "and").toList ++
    ((f.or?.map fun _ => "or").toList ++ (f.operator?.map fun _ => "operator").toList)

mutual

/-- Checks that each node sets exactly one shape-giving field; the first node in pre-order that
does not is the error. -/
def check (p : Position) : RawFilter → Except ShapeError Filter
  | ⟨some cs, none, none, _, _⟩ => (checkChildren p .and 0 cs).map (.combine .and)
  | ⟨none, some cs, none, _, _⟩ => (checkChildren p .or 0 cs).map (.combine .or)
  | ⟨none, none, some operator, value?, values?⟩ => .ok (.leaf ⟨operator, value?, values?⟩)
  | f => .error ⟨p, f.populated⟩

def checkChildren (p : Position) (c : Combinator) (index : Nat) :
    List RawFilter → Except ShapeError (List Filter)
  | [] => .ok []
  | f :: fs => do
    let child ← check (p.child c index) f
    return child :: (← checkChildren p c (index + 1) fs)

end

end RawFilter

namespace Filter

def and (children : List Filter) : Filter := .combine .and children

def or (children : List Filter) : Filter := .combine .or children

def bare (operator : String) : Filter := .leaf ⟨operator, none, none⟩

def single (operator : String) (v : Value) : Filter := .leaf ⟨operator, some v, none⟩

def many (operator : String) (vs : List Value) : Filter := .leaf ⟨operator, none, some vs⟩

mutual

/-- The wire form of a filter. -/
def raw : Filter → RawFilter
  | .combine .and children => ⟨some (rawChildren children), none, none, none, none⟩
  | .combine .or children => ⟨none, some (rawChildren children), none, none, none⟩
  | .leaf l => ⟨none, none, some l.operator, l.value?, l.values?⟩

def rawChildren : List Filter → List RawFilter
  | [] => []
  | f :: fs => f.raw :: rawChildren fs

end

mutual

def leafCount : Filter → Nat
  | .combine _ children => leafCounts children
  | .leaf _ => 1

def leafCounts : List Filter → Nat
  | [] => 0
  | f :: fs => f.leafCount + leafCounts fs

end

mutual

/-- The number of nodes on the longest way down. -/
def depth : Filter → Nat
  | .combine _ children => 1 + depths children
  | .leaf _ => 1

def depths : List Filter → Nat
  | [] => 0
  | f :: fs => max f.depth (depths fs)

end

def toJson (f : Filter) : Json := f.raw.toJson

/-- Why a text is no filter. -/
inductive ReadError where
  | decode (e : DecodeError)
  | shape (e : ShapeError)

namespace ReadError

def category : ReadError → DecodeError.Category
  | .decode e => e.category
  | .shape _ => .data

def text : ReadError → String
  | .decode e => e.text
  | .shape e => e.text

end ReadError

/-- Reads a filter at the usual position. Its shape is checked as soon as its value is read. -/
def ofText (text : String) : Except ReadError Filter := do
  let (d, more) := Draft.ofText text
  let f ← (RawFilter.decode Decoder.nesting d).mapError .decode
  let node ← (f.check .root).mapError .shape
  if more then throw (.decode .malformed)
  return node

end Filter

end FeedQuery
