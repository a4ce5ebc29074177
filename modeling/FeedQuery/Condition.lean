import FeedQuery.Filter.Operator
import FeedQuery.Json.Print

/-!
Conditions on messages, as checked filter leaves denote them, and their JSON form.
-/
namespace FeedQuery

/-- A condition with operands of the right kind. -/
inductive Condition where
  | text (t : TextOperator) (operand : String)
  | flag (f : FlagOperator)
  /-- Equality of a value anywhere in the message, e.g. at `value`, `content`, `type`. -/
  | slowEqual (path : List String) (value : Value)
  /-- Comparison of a numeric field of the message with a bound. -/
  | compare (field : String) (op : Comparison) (bound : Extended)

/-- JSON has no infinities and nothing undefined. -/
def Extended.toJson : Extended → Json
  | .finite x => .number (.float x)
  | _ => .null

namespace Condition

def operatorName : Condition → String
  | .text t _ => t.name
  | .flag f => f.name
  | .slowEqual _ _ => "slowEqual"
  | .compare _ _ _ => "compare"

def operandJson? : Condition → Option Json
  | .text _ s => some (.string s)
  | .flag _ => none
  | .slowEqual path value =>
    some (.object [("path", .array (path.map .string)), ("value", value.json)])
  | .compare field op bound =>
    some (.object [("field", .string field), ("op", .string op.name), ("value", bound.toJson)])

def toJson (c : Condition) : Json :=
  .object (("operator", .string c.operatorName) ::
    (c.operandJson?.map fun j => ("value", j)).toList)

end Condition

end FeedQuery
