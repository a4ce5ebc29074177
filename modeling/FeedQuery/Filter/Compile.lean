import FeedQuery.Filter.Basic
import FeedQuery.Filter.Operand
import FeedQuery.Predicate

/-!
Compilation of filters into predicates.
-/
namespace FeedQuery

/-- What is wrong with a node of a filter. -/
inductive Fault where
  | shape (found : List String)
  | emptyList (c : Combinator)
  | unknownOperator (name : String)
  | operand (operator : String) (e : OperandError)
  deriving DecidableEq, Repr

/-- Why a filter does not compile: the fault of its first faulty node. -/
structure FilterError where
  position : Position
  fault : Fault
  deriving DecidableEq, Repr

namespace FilterError

def text (e : FilterError) : String :=
  match e.fault with
  | .shape found => ShapeError.text ⟨e.position, found⟩
  | .emptyList c => "Empty '" ++ c.name ++ "' list at " ++ e.position.render
  | .unknownOperator name => "Unknown operator '" ++ name ++ "' at " ++ e.position.render
  | .operand operator source =>
    "Invalid value for operator '" ++ operator ++ "' at " ++ e.position.render ++ ": " ++
      source.text

def ofShape (e : ShapeError) : FilterError := ⟨e.position, .shape e.found⟩

end FilterError

/-- The operator of a name, or the error of a node that names none. -/
def Operator.resolve (name : String) (p : Position) : Except FilterError Operator :=
  match Operator.ofName? name with
  | some op => .ok op
  | none => .error ⟨p, .unknownOperator name⟩

namespace Leaf

def compile (l : Leaf) (p : Position) : Except FilterError Condition := do
  let op ← Operator.resolve l.operator p
  (op.construct l.value? l.values?).mapError fun e => ⟨p, .operand l.operator e⟩

end Leaf

namespace Filter

mutual

/-- Compiles node for node, keeping every combinator; the first faulty node in pre-order is the
error. -/
def compileAt (p : Position) : Filter → Except FilterError Predicate
  | .combine c [] => .error ⟨p, .emptyList c⟩
  | .combine c (f :: fs) => (compileChildren p c 0 (f :: fs)).map (.combine c)
  | .leaf l => (l.compile p).map .condition

def compileChildren (p : Position) (c : Combinator) (index : Nat) :
    List Filter → Except FilterError (List Predicate)
  | [] => .ok []
  | f :: fs => do
    let child ← compileAt (p.child c index) f
    return child :: (← compileChildren p c (index + 1) fs)

end

def compile (f : Filter) : Except FilterError Predicate := f.compileAt .root

end Filter

namespace RawFilter

/-- Compiles a filter in wire form: the shape of the whole tree is checked first. -/
def compile (f : RawFilter) : Except FilterError Predicate := do
  let node ← (f.check .root).mapError FilterError.ofShape
  node.compile

end RawFilter

end FeedQuery
