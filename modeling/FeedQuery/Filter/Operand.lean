import FeedQuery.Condition
import FeedQuery.Text.Lines

/-!
Operands of a filter leaf: which of `value` and `values` an operator takes, and the condition it
makes of them.
-/
namespace FeedQuery

/-- Why the operands of a leaf are refused. -/
inductive OperandError where
  | missing
  | emptyList
  | wrongCount (expected actual : Nat)
  | wrongKind (expected : String) (actual : Json.Kind)
  deriving DecidableEq, Repr

namespace OperandError

def text : OperandError → String
  | .missing => "a value is required"
  | .emptyList => "the value list must not be empty"
  | .wrongCount expected actual =>
    "expected " ++ toString expected ++ " values, got " ++ toString actual
  | .wrongKind expected actual => "expected " ++ expected ++ ", got " ++ actual.name

end OperandError

/-- Operands as an operator's arity asks for them. -/
inductive Operands where
  | none
  | single (v : Value)
  | list (vs : List Value)

namespace Operands

/-- The one operand of a leaf: its value, else the only element of its values. A null is none. -/
def single? (value? : Option Value) (values? : Option (List Value)) : Except OperandError Value :=
  match value?.filter (!·.json.isNull), values? with
  | some v, _ => .ok v
  | .none, some [v] => if v.json.isNull then .error .missing else .ok v
  | .none, some (_ :: v :: vs) => .error (.wrongCount 1 (v :: vs).length.succ)
  | .none, _ => .error .missing

/-- The operand list of a leaf, of a fixed length. -/
def list? (length : Nat) : Option (List Value) → Except OperandError (List Value)
  | .none => .error .missing
  | some [] => .error .emptyList
  | some vs => if vs.length = length then .ok vs else .error (.wrongCount length vs.length)

def select (arity : Arity) (value? : Option Value) (values? : Option (List Value)) :
    Except OperandError Operands :=
  match arity with
  | .none => .ok .none
  | .single => (single? value? values?).map .single
  | .list length => (list? length values?).map .list

end Operands

namespace Value

/-- A text operand: a string, or an object that carries one as its `id`. -/
def text? (v : Value) : Except OperandError String :=
  match v.json with
  | .string s => .ok s
  | .object fields => match (Json.object fields).get? "id" with
    | some (.string id) => .ok id
    | _ => .error (.wrongKind "string or \x7bid\x7d" .object)
  | j => .error (.wrongKind "string" j.kind)

/-- A numeric operand: an integer too, as the nearest binary64 number. -/
def number? (v : Value) : Except OperandError Binary64 :=
  match v.json with
  | .number n => .ok n.toBinary64
  | j => .error (.wrongKind "number" j.kind)

/-- A path operand: a nonempty text whose segments are separated by dots. -/
def path? (v : Value) : Except OperandError (List String) :=
  match v.json with
  | .string s => if s = "" then .error (.wrongKind "dotted path string" .string)
    else .ok (Text.cut '.' s)
  | j => .error (.wrongKind "dotted path string" j.kind)

end Value

namespace Operator

/-- The condition of an operator with given operands. Operands of another shape than the operator
takes are no operands to it. -/
def build : Operator → Operands → Except OperandError Condition
  | .text t, .single v => v.text?.map (.text t)
  | .flag f, _ => .ok (.flag f)
  | .slowEqual, .list [path, value] => path.path?.map (.slowEqual · value)
  | .compare c, .single v => v.number?.map fun x => .compare timestampField c (.finite x)
  | _, _ => .error .missing

end Operator

/-- An entry of the vocabulary. Its arity may be altered; operands are then picked by the new one
but the operator keeps what it takes. -/
structure OperatorEntry where
  operator : Operator
  arity : Arity

def Operator.entry (op : Operator) : OperatorEntry := ⟨op, op.arity⟩

namespace OperatorEntry

def all : List OperatorEntry := Operator.all.map Operator.entry

def construct (e : OperatorEntry) (value? : Option Value) (values? : Option (List Value)) :
    Except OperandError Condition := do
  e.operator.build (← Operands.select e.arity value? values?)

def toJson (e : OperatorEntry) : Json :=
  .object [("name", .string e.operator.name), ("arity", e.arity.toJson),
    ("bound_field", (e.operator.boundField?.map Json.string).getD .null)]

end OperatorEntry

namespace Operator

/-- The condition of an operator on the operands of a leaf. -/
def construct (op : Operator) (value? : Option Value) (values? : Option (List Value)) :
    Except OperandError Condition :=
  op.entry.construct value? values?

end Operator

end FeedQuery
