import FeedQuery.Proofs.Filter.Congruence

/-!
Filters of which one is the other with a subtree exchanged, anywhere in the tree.
-/
namespace FeedQuery.RawFilter

/-- A node with other children in one of its lists. -/
def withList (f : RawFilter) : Combinator → List RawFilter → RawFilter
  | .and, fs => { f with and? := some fs }
  | .or, fs => { f with or? := some fs }

/-- Two filters that are the same but for one subtree, at any depth, which is exchanged for a
related one. -/
inductive Exchanged (R : RawFilter → RawFilter → Prop) : RawFilter → RawFilter → Prop where
  | here {f g : RawFilter} (h : R f g) : Exchanged R f g
  | inside {f g : RawFilter} (h : Exchanged R f g) (node : RawFilter) (c : Combinator)
      (before behind : List RawFilter) :
      Exchanged R (node.withList c (before ++ f :: behind)) (node.withList c (before ++ g :: behind))

variable {R : RawFilter → RawFilter → Prop} {S : Predicate → Predicate → Prop} {f g : RawFilter}

theorem forall₂_alike_refl (hS : Predicate.Congruence S) (fs : List RawFilter) :
    List.Forall₂ (Alike S) fs fs := List.forall₂_same.2 fun f _ => .refl hS f

theorem optionRel_alike_refl (hS : Predicate.Congruence S) (fs? : Option (List RawFilter)) :
    Option.Rel (List.Forall₂ (Alike S)) fs? fs? := by
  cases fs? with
  | none => exact .none
  | some fs => exact .some (forall₂_alike_refl hS fs)

/-- What compiles alike by itself does so with anything around it. -/
theorem Exchanged.alike (hS : Predicate.Congruence S) (hR : ∀ f g, R f g → Alike S f g)
    (h : Exchanged R f g) : Alike S f g := by
  induction h with
  | here h => exact hR _ _ h
  | @inside f g h node c before behind ih =>
    have hlist : List.Forall₂ (Alike S) (before ++ f :: behind) (before ++ g :: behind) :=
      List.rel_append (forall₂_alike_refl hS before) (.cons ih (forall₂_alike_refl hS behind))
    cases c with
    | and => exact .node hS (.some hlist) (optionRel_alike_refl hS node.or?) fun _ => rfl
    | or => exact .node hS (optionRel_alike_refl hS node.and?) (.some hlist) fun _ => rfl

end FeedQuery.RawFilter
