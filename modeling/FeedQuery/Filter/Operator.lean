import FeedQuery.Json.Basic

/-!
The vocabulary of filter operators: their names, how many operands each takes, and the field that
some are bound to.
-/
namespace FeedQuery

/-- Operators that test a text of the message against a text. -/
inductive TextOperator where
  | type | author | mentions | channel | key | votesFor | contact | about
  | hasRoot | hasFork | hasBranch | fullMentions
  deriving DecidableEq, Repr

/-- Operators that take no operand. -/
inductive FlagOperator where
  | isRoot | isPrivate | isPublic
  deriving DecidableEq, Repr

/-- Comparison of a number with a bound. -/
inductive Comparison where
  | lt | lte | gt | gte
  deriving DecidableEq, Repr

inductive Operator where
  | text (t : TextOperator)
  | flag (f : FlagOperator)
  | slowEqual
  | compare (c : Comparison)
  deriving DecidableEq, Repr

/-- How many operands an operator takes: none, one, or a list of fixed length. -/
inductive Arity where
  | none
  | single
  | list (length : Nat)
  deriving DecidableEq, Repr

def TextOperator.name : TextOperator → String
  | .type => "type"
  | .author => "author"
  | .mentions => "mentions"
  | .channel => "channel"
  | .key => "key"
  | .votesFor => "votesFor"
  | .contact => "contact"
  | .about => "about"
  | .hasRoot => "hasRoot"
  | .hasFork => "hasFork"
  | .hasBranch => "hasBranch"
  | .fullMentions => "fullMentions"

def FlagOperator.name : FlagOperator → String
  | .isRoot => "isRoot"
  | .isPrivate => "isPrivate"
  | .isPublic => "isPublic"

namespace Comparison

def name : Comparison → String
  | .lt => "lt"
  | .lte => "lte"
  | .gt => "gt"
  | .gte => "gte"

def symbol : Comparison → String
  | .lt => "<"
  | .lte => "<="
  | .gt => ">"
  | .gte => ">="

def holds : Comparison → Extended → Extended → Bool
  | .lt, actual, bound => actual.lt bound
  | .lte, actual, bound => actual.le bound
  | .gt, actual, bound => bound.lt actual
  | .gte, actual, bound => bound.le actual

end Comparison

namespace Operator

def name : Operator → String
  | .text t => t.name
  | .flag f => f.name
  | .slowEqual => "slowEqual"
  | .compare c => c.name

/-- The whole vocabulary, in the order in which it is listed to clients. -/
def all : List Operator :=
  [.text .type, .text .author, .text .mentions, .text .channel, .text .key, .text .votesFor,
    .text .contact, .text .about, .text .hasRoot, .text .hasFork, .text .hasBranch,
    .flag .isRoot, .flag .isPrivate, .flag .isPublic, .text .fullMentions, .slowEqual,
    .compare .lt, .compare .lte, .compare .gt, .compare .gte]

def ofName? (name : String) : Option Operator := all.find? (·.name == name)

def arity : Operator → Arity
  | .text _ | .compare _ => .single
  | .flag _ => .none
  | .slowEqual => .list 2

/-- The field that time operators compare. -/
def timestampField : String := "timestamp"

def boundField? : Operator → Option String
  | .compare _ => some timestampField
  | _ => none

theorem mem_all (op : Operator) : op ∈ all := by
  rcases op with (_ | _ | _ | _ | _ | _ | _ | _ | _ | _ | _ | _) | (_ | _ | _) | _ |
    (_ | _ | _ | _) <;> decide

theorem name_injective {a b : Operator} (h : a.name = b.name) : a = b := by
  have key : ∀ a ∈ all, ∀ b ∈ all, a.name = b.name → a = b := by decide
  exact key a (mem_all a) b (mem_all b) h

@[simp] theorem ofName?_name (op : Operator) : ofName? op.name = some op := by
  have key : ∀ a ∈ all, ofName? a.name = some a := by decide
  exact key op (mem_all op)

end Operator

namespace Arity

def text : Arity → String
  | .none => "none"
  | .single => "single-value"
  | .list n => "value-list(" ++ toString n ++ ")"

def toJson : Arity → Json
  | .none => .string "none"
  | .single => .string "single"
  | .list n => .object [("list", .number (.ofNat n))]

end Arity

end FeedQuery
