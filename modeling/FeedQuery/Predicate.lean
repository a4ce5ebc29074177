import FeedQuery.Condition
import FeedQuery.Filter.Position
import FeedQuery.Message

/-!
Predicates on messages: trees of conditions, and when they hold.
-/
namespace FeedQuery

namespace Message

/-- Whether an entry of a mentions list names a feed: as an object with a link, or as a bare string
where that is allowed. -/
def mentionsFeed (bare : Bool) (id : String) : Json → Bool
  | .string link => bare && link == id
  | .object fields => ((Json.object fields).get? "link").bind Json.text? == some id
  | _ => false

def mentions (m : Message) (bare : Bool) (id : String) : Bool :=
  match m.field? "mentions" with
  | some (.array entries) => entries.any (mentionsFeed bare id)
  | _ => false

/-- Whether the branch field is a key or lists it. -/
def hasBranch (m : Message) (key : String) : Bool :=
  match m.field? "branch" with
  | some (.string b) => b == key
  | some (.array bs) => bs.any fun b => b.text? == some key
  | _ => false

def votesFor (m : Message) (key : String) : Bool :=
  m.type? == some "vote" &&
    ((m.field? "vote").bind (Json.get? "link")).bind Json.text? == some key

def isRoot (m : Message) : Bool := (m.field? "root").all Json.isNull

/-- A field that comparisons can be made on: the claimed time only. -/
def number? (m : Message) : String → Option Binary64
  | "timestamp" => some m.entry.timestamp
  | _ => none

end Message

namespace TextOperator

def holds (m : Message) (operand : String) : TextOperator → Bool
  | .type => m.type? == some operand
  | .author => m.author == operand
  | .key => m.key == operand
  | .channel => m.fieldText? "channel" == some operand
  | .mentions => m.mentions true operand
  | .fullMentions => m.mentions false operand
  | .votesFor => m.votesFor operand
  | .contact => m.type? == some "contact" && m.fieldText? "contact" == some operand
  | .about => m.type? == some "about" && m.fieldText? "about" == some operand
  | .hasRoot => m.fieldText? "root" == some operand
  | .hasFork => m.fieldText? "fork" == some operand
  | .hasBranch => m.hasBranch operand

end TextOperator

namespace FlagOperator

def holds (m : Message) : FlagOperator → Bool
  | .isRoot => m.isRoot
  | .isPrivate => m.isPrivate
  | .isPublic => !m.isPrivate

end FlagOperator

namespace Condition

def holds (m : Message) : Condition → Bool
  | .text t operand => t.holds m operand
  | .flag f => f.holds m
  | .slowEqual path value => (m.lookup? path).any (·.same value.json)
  | .compare field op bound => (m.number? field).any fun x => op.holds (.finite x) bound

end Condition

inductive Predicate where
  | condition (c : Condition)
  | combine (c : Combinator) (children : List Predicate)

namespace Predicate

instance : Inhabited Predicate := ⟨.combine .and []⟩

mutual

/-- Whether a message satisfies a predicate: all children of an `and`, some child of an `or`. -/
def holds (m : Message) : Predicate → Bool
  | .condition c => c.holds m
  | .combine .and ps => allHold m ps
  | .combine .or ps => anyHolds m ps

def allHold (m : Message) : List Predicate → Bool
  | [] => true
  | p :: ps => p.holds m && allHold m ps

def anyHolds (m : Message) : List Predicate → Bool
  | [] => false
  | p :: ps => p.holds m || anyHolds m ps

end

@[simp] theorem allHold_eq (m : Message) (ps : List Predicate) :
    allHold m ps = ps.all (·.holds m) := by
  induction ps with
  | nil => simp [allHold]
  | cons p ps ih => simp [allHold, ih]

@[simp] theorem anyHolds_eq (m : Message) (ps : List Predicate) :
    anyHolds m ps = ps.any (·.holds m) := by
  induction ps with
  | nil => simp [anyHolds]
  | cons p ps ih => simp [anyHolds, ih]

mutual

/-- The JSON form of a predicate, before its keys are sorted. -/
def toJson : Predicate → Json
  | .condition c => c.toJson
  | .combine c ps => .object [(c.name, .array (childrenJson ps))]

def childrenJson : List Predicate → List Json
  | [] => []
  | p :: ps => p.toJson :: childrenJson ps

end

def text (p : Predicate) : String := p.toJson.sorted.compact

end Predicate

end FeedQuery
