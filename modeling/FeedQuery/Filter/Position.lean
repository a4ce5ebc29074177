/-!
Positions of the nodes of a filter tree, and their rendering as a dotted path.
-/
namespace FeedQuery

/-- How a filter node combines its children. -/
inductive Combinator where
  | and
  | or
  deriving DecidableEq, Repr

def Combinator.name : Combinator → String
  | .and => "and"
  | .or => "or"

/-- A node of a filter tree: the name of the tree and the steps from its root down. -/
structure Position where
  base : String
  steps : List (Combinator × Nat)
  deriving DecidableEq, Repr

namespace Position

/-- Where a request carries its filter. -/
def root : Position := ⟨"where", []⟩

def child (p : Position) (c : Combinator) (index : Nat) : Position :=
  ⟨p.base, p.steps ++ [(c, index)]⟩

@[simp] theorem base_child (p : Position) (c : Combinator) (index : Nat) :
    (p.child c index).base = p.base := rfl

@[simp] theorem steps_child (p : Position) (c : Combinator) (index : Nat) :
    (p.child c index).steps = p.steps ++ [(c, index)] := rfl

def renderStep (step : Combinator × Nat) : String :=
  "." ++ step.1.name ++ "[" ++ toString step.2 ++ "]"

/-- The path of a node, such as `where.and[1].or[0]`. -/
def render (p : Position) : String := p.base ++ String.join (p.steps.map renderStep)

end Position

end FeedQuery
