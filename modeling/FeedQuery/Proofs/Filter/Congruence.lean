import Mathlib.Data.List.Forall2
import FeedQuery.Filter.Compile
import FeedQuery.Proofs.Outcome

/-!
Parts of a filter may be exchanged for others that compile alike, wherever in the tree they stand:
the whole filter then compiles alike.
-/
namespace FeedQuery

namespace Predicate

/-- A relation between predicates that holds of two trees if it holds of their parts. -/
structure Congruence (R : Predicate → Predicate → Prop) : Prop where
  refl : ∀ p, R p p
  combine : ∀ (c : Combinator) {ps qs : List Predicate},
    List.Forall₂ R ps qs → R (.combine c ps) (.combine c qs)

theorem congruence_eq : Congruence Eq where
  refl _ := rfl
  combine c ps qs h := by
    rw [List.forall₂_eq_eq_eq] at h
    rw [h]

/-- Predicates that hold of the same messages. -/
def Same (p q : Predicate) : Prop := ∀ m, p.holds m = q.holds m

theorem allHold_congr {ps qs : List Predicate} (h : List.Forall₂ Same ps qs) (m : Message) :
    allHold m ps = allHold m qs := by
  induction h with
  | nil => rfl
  | cons head tail ih => rw [allHold, allHold, head m, ih]

theorem anyHolds_congr {ps qs : List Predicate} (h : List.Forall₂ Same ps qs) (m : Message) :
    anyHolds m ps = anyHolds m qs := by
  induction h with
  | nil => rfl
  | cons head tail ih => rw [anyHolds, anyHolds, head m, ih]

theorem congruence_same : Congruence Same where
  refl _ _ := rfl
  combine c _ _ h m := by
    cases c with
    | and => rw [holds, holds, allHold_congr h m]
    | or => rw [holds, holds, anyHolds_congr h m]

end Predicate

variable {R : Predicate → Predicate → Prop}

namespace Filter

/-- Filters that compile alike at any position. -/
def Alike (R : Predicate → Predicate → Prop) (f g : Filter) : Prop :=
  ∀ q, Agree R (f.compileAt q) (g.compileAt q)

theorem compileChildren_agree {fs gs : List Filter} (h : List.Forall₂ (Alike R) fs gs)
    (q : Position) (c : Combinator) (index : Nat) :
    Agree (List.Forall₂ R) (compileChildren q c index fs) (compileChildren q c index gs) := by
  induction h generalizing index with
  | nil => exact .ok .nil
  | cons head tail ih =>
    rw [compileChildren, compileChildren]
    refine (head (q.child c index)).bind fun p p' hp => ?_
    exact (ih (index + 1)).map fun ps ps' hps => .cons hp hps

theorem Alike.combine (hR : Predicate.Congruence R) {fs gs : List Filter}
    (h : List.Forall₂ (Alike R) fs gs) (c : Combinator) :
    Alike R (.combine c fs) (.combine c gs) := by
  intro q
  cases h with
  | nil => exact .error _
  | cons head tail =>
    rw [compileAt, compileAt]
    exact (compileChildren_agree (.cons head tail) q c 0).map fun _ _ hps => hR.combine c hps

end Filter

namespace RawFilter

/-- Filters in wire form that compile alike wherever in a tree they stand. -/
def Alike (R : Predicate → Predicate → Prop) (f g : RawFilter) : Prop :=
  ∀ p, Agree (Filter.Alike R) (f.check p) (g.check p)

theorem checkChildren_agree {fs gs : List RawFilter} (h : List.Forall₂ (Alike R) fs gs)
    (p : Position) (c : Combinator) (index : Nat) :
    Agree (List.Forall₂ (Filter.Alike R)) (checkChildren p c index fs)
      (checkChildren p c index gs) := by
  induction h generalizing index with
  | nil => exact .ok .nil
  | cons head tail ih =>
    rw [checkChildren, checkChildren]
    refine (head (p.child c index)).bind fun node node' hnode => ?_
    exact (ih (index + 1)).map fun nodes nodes' hnodes => .cons hnode hnodes

namespace Alike

theorem refl (hR : Predicate.Congruence R) (f : RawFilter) : Alike R f f :=
  fun _ => .refl (fun _ _ => .refl hR.refl _) _

theorem compile {f g : RawFilter} (h : Alike R f g) : Agree R f.compile g.compile :=
  ((h .root).mapError FilterError.ofShape).bind fun _ _ hnode => hnode .root

variable {and? and?' or? or?' : Option (List RawFilter)} {operator? : Option String}
  {value? value?' : Option Value} {values? values?' : Option (List Value)}

/-- A leaf counts for what its operator makes of its operands. -/
theorem leaf (hR : Predicate.Congruence R) (operator : String)
    (h : ∀ op : Operator, op.construct value? values? = op.construct value?' values?') :
    Filter.Alike R (.leaf ⟨operator, value?, values?⟩) (.leaf ⟨operator, value?', values?'⟩) := by
  intro q
  have hcompile : Leaf.compile ⟨operator, value?, values?⟩ q =
      Leaf.compile ⟨operator, value?', values?'⟩ q := by
    simp only [Leaf.compile, h]
  rw [Filter.compileAt, Filter.compileAt, hcompile]
  exact .refl hR.refl _

/-- A node counts for its shape and for what its children compile to. -/
theorem node (hR : Predicate.Congruence R)
    (hand : Option.Rel (List.Forall₂ (Alike R)) and? and?')
    (hor : Option.Rel (List.Forall₂ (Alike R)) or? or?')
    (hleaf : ∀ op : Operator, op.construct value? values? = op.construct value?' values?') :
    Alike R ⟨and?, or?, operator?, value?, values?⟩ ⟨and?', or?', operator?, value?', values?'⟩ := by
  intro p
  cases hand with
  | none =>
    cases hor with
    | none =>
      cases operator? with
      | none => exact .error _
      | some operator => exact .ok (leaf hR operator hleaf)
    | some hor =>
      cases operator? with
      | none =>
        rw [check, check]
        exact (checkChildren_agree hor p .or 0).map fun _ _ h => .combine hR h .or
      | some operator => exact .error _
  | some hand =>
    cases hor with
    | none =>
      cases operator? with
      | none =>
        rw [check, check]
        exact (checkChildren_agree hand p .and 0).map fun _ _ h => .combine hR h .and
      | some operator => exact .error _
    | some hor => cases operator? <;> exact .error _

end Alike

end RawFilter

end FeedQuery
