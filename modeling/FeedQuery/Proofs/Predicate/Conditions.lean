import FeedQuery.Predicate

/-!
The conditions of a predicate, from left to right. Two messages of which they all say the same
cannot be told apart by the predicate.
-/
namespace FeedQuery.Predicate

mutual

/-- The conditions at the leaves of a predicate. -/
def conditions : Predicate → List Condition
  | .condition c => [c]
  | .combine _ ps => conditionsOf ps

def conditionsOf : List Predicate → List Condition
  | [] => []
  | p :: ps => p.conditions ++ conditionsOf ps

end

variable {m m' : Message}

mutual

theorem holds_eq_of_conditions : (p : Predicate) →
    (∀ c ∈ p.conditions, c.holds m = c.holds m') → p.holds m = p.holds m'
  | .condition c, h => h c (List.mem_singleton_self c)
  | .combine .and ps, h => (allHold_and_anyHolds_eq_of_conditions ps h).1
  | .combine .or ps, h => (allHold_and_anyHolds_eq_of_conditions ps h).2

theorem allHold_and_anyHolds_eq_of_conditions : (ps : List Predicate) →
    (∀ c ∈ conditionsOf ps, c.holds m = c.holds m') →
      allHold m ps = allHold m' ps ∧ anyHolds m ps = anyHolds m' ps
  | [], _ => ⟨rfl, rfl⟩
  | p :: ps, h => by
    rw [conditionsOf, List.forall_mem_append] at h
    have hhead := holds_eq_of_conditions p h.1
    have htail := allHold_and_anyHolds_eq_of_conditions ps h.2
    rw [allHold, allHold, anyHolds, anyHolds, hhead, htail.1, htail.2]
    exact ⟨rfl, rfl⟩

end

end FeedQuery.Predicate
