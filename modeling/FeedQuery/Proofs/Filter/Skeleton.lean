import FeedQuery.Proofs.Filter.Meaning
import FeedQuery.Proofs.Predicate.Conditions

/-!
Compilation keeps the tree of a filter: the combinators stay as they are, and each leaf becomes one
condition in its place. What comes out is well formed.
-/
namespace FeedQuery

/-- A tree of combinators, without what stands at its leaves. -/
inductive Skeleton where
  | leaf
  | combine (c : Combinator) (children : List Skeleton)

/-- A condition that can be evaluated as it is meant: a path has segments, which have no dots, and a
comparison is one of the claimed time with a number. -/
def Condition.WellFormed : Condition → Prop
  | .text _ _ => True
  | .flag _ => True
  | .slowEqual path _ => path ≠ [] ∧ ∀ segment ∈ path, '.' ∉ segment.toList
  | .compare field _ bound => field = "timestamp" ∧ ∃ x, bound = .finite x

namespace Predicate

mutual

def skeleton : Predicate → Skeleton
  | .condition _ => .leaf
  | .combine c ps => .combine c (skeletons ps)

def skeletons : List Predicate → List Skeleton
  | [] => []
  | p :: ps => p.skeleton :: skeletons ps

end

mutual

/-- The number of predicates on the longest way down. -/
def depth : Predicate → Nat
  | .condition _ => 1
  | .combine _ ps => 1 + depths ps

def depths : List Predicate → Nat
  | [] => 0
  | p :: ps => max p.depth (depths ps)

end

mutual

/-- Every combinator has children, and every condition is well formed. -/
def WellFormed : Predicate → Prop
  | .condition c => c.WellFormed
  | .combine _ ps => ps ≠ [] ∧ AllWellFormed ps

def AllWellFormed : List Predicate → Prop
  | [] => True
  | p :: ps => p.WellFormed ∧ AllWellFormed ps

end

end Predicate

namespace Filter

mutual

def skeleton : Filter → Skeleton
  | .combine c fs => .combine c (skeletons fs)
  | .leaf _ => .leaf

def skeletons : List Filter → List Skeleton
  | [] => []
  | f :: fs => f.skeleton :: skeletons fs

end

mutual

/-- The leaves of a filter, from left to right. -/
def leaves : Filter → List Leaf
  | .combine _ fs => leavesOf fs
  | .leaf l => [l]

def leavesOf : List Filter → List Leaf
  | [] => []
  | f :: fs => f.leaves ++ leavesOf fs

end

end Filter

/-- The condition that a leaf stands for, read off its operator and its operands. -/
inductive Leaf.Denotes (l : Leaf) : Condition → Prop where
  | text {t : TextOperator} {v : Value} {s : String} (hop : l.operator = t.name)
      (hv : RawFilter.IsOperand l.value? l.values? v) (hs : v.IsText s) : Denotes l (.text t s)
  | flag {f : FlagOperator} (hop : l.operator = f.name) : Denotes l (.flag f)
  | slowEqual {operand v : Value} {path : List String} (hop : l.operator = "slowEqual")
      (hvalues : l.values? = some [operand, v]) (hne : path ≠ [])
      (hsegments : ∀ segment ∈ path, '.' ∉ segment.toList)
      (hoperand : operand.json = .string (".".intercalate path)) : Denotes l (.slowEqual path v)
  | compare {c : Comparison} {v : Value} {x : Binary64} (hop : l.operator = c.name)
      (hv : RawFilter.IsOperand l.value? l.values? v) (hx : v.IsNumber x) :
      Denotes l (.compare "timestamp" c (.finite x))

theorem Leaf.Denotes.wellFormed {l : Leaf} {c : Condition} (h : l.Denotes c) : c.WellFormed := by
  cases h with
  | text hop hv hs => trivial
  | flag hop => trivial
  | slowEqual hop hvalues hne hsegments hoperand => exact ⟨hne, hsegments⟩
  | compare hop hv hx => exact ⟨rfl, _, rfl⟩

theorem Leaf.denotes_of_compile {l : Leaf} {q : Position} {c : Condition}
    (h : l.compile q = .ok c) : l.Denotes c := by
  obtain ⟨op, hop, h⟩ := bind_eq_ok_iff.1 h
  have hname : l.operator = op.name := (Operator.name_of_resolve hop).symm
  rw [mapError_eq_ok_iff] at h
  cases op with
  | text t =>
    obtain ⟨v, s, hv, hs, rfl⟩ := Operator.construct_text h
    exact .text hname (RawFilter.isOperand_of_single? hv) (Value.text?_eq_ok_iff.1 hs)
  | flag f =>
    cases Operator.construct_flag h
    exact .flag hname
  | slowEqual =>
    obtain ⟨operand, v, path, hvalues, hpath, rfl⟩ := Operator.construct_slowEqual h
    obtain ⟨hne, hsegments, hoperand⟩ := (Value.isPath_iff_of_path? hpath).2 rfl
    exact .slowEqual hname hvalues hne hsegments hoperand
  | compare c =>
    obtain ⟨v, x, hv, hx, rfl⟩ := Operator.construct_compare h
    exact .compare hname (RawFilter.isOperand_of_single? hv) (Value.number?_eq_ok_iff.1 hx)

/-- What compilation keeps of a filter, and what it makes sure of. -/
structure Filter.KeptBy (f : Filter) (p : Predicate) : Prop where
  skeleton : p.skeleton = f.skeleton
  conditions : List.Forall₂ Leaf.Denotes f.leaves p.conditions
  length_conditions : p.conditions.length = f.leafCount
  leafCount_pos : 0 < f.leafCount
  depth : p.depth = f.depth
  wellFormed : p.WellFormed

namespace Filter

variable {fs : List Filter} {ps : List Predicate}

theorem skeletons_eq (h : List.Forall₂ KeptBy fs ps) :
    Predicate.skeletons ps = skeletons fs := by
  induction h with
  | nil => rfl
  | cons head tail ih => rw [Predicate.skeletons, skeletons, head.skeleton, ih]

theorem forall₂_leavesOf (h : List.Forall₂ KeptBy fs ps) :
    List.Forall₂ Leaf.Denotes (leavesOf fs) (Predicate.conditionsOf ps) := by
  induction h with
  | nil => exact .nil
  | cons head tail ih => exact List.rel_append head.conditions ih

theorem length_conditionsOf (h : List.Forall₂ KeptBy fs ps) :
    (Predicate.conditionsOf ps).length = leafCounts fs := by
  induction h with
  | nil => rfl
  | cons head tail ih =>
    rw [Predicate.conditionsOf, List.length_append, leafCounts, head.length_conditions, ih]

theorem leafCounts_pos (h : List.Forall₂ KeptBy fs ps) (hne : fs ≠ []) : 0 < leafCounts fs := by
  cases h with
  | nil => exact absurd rfl hne
  | cons head tail => exact Nat.add_pos_left head.leafCount_pos _

theorem depths_eq (h : List.Forall₂ KeptBy fs ps) : Predicate.depths ps = depths fs := by
  induction h with
  | nil => rfl
  | cons head tail ih => rw [Predicate.depths, depths, head.depth, ih]

theorem allWellFormed (h : List.Forall₂ KeptBy fs ps) : Predicate.AllWellFormed ps := by
  induction h with
  | nil => trivial
  | cons head tail ih => exact ⟨head.wellFormed, ih⟩

namespace KeptBy

theorem leaf {l : Leaf} {c : Condition} (h : l.Denotes c) : KeptBy (.leaf l) (.condition c) where
  skeleton := rfl
  conditions := .cons h .nil
  length_conditions := rfl
  leafCount_pos := Nat.one_pos
  depth := rfl
  wellFormed := h.wellFormed

theorem combine (c : Combinator) (hne : fs ≠ []) (h : List.Forall₂ KeptBy fs ps) :
    KeptBy (.combine c fs) (.combine c ps) where
  skeleton := congrArg (Skeleton.combine c) (skeletons_eq h)
  conditions := forall₂_leavesOf h
  length_conditions := length_conditionsOf h
  leafCount_pos := leafCounts_pos h hne
  depth := congrArg (1 + ·) (depths_eq h)
  wellFormed := by
    refine ⟨?_, allWellFormed h⟩
    rintro rfl
    cases h
    exact hne rfl

end KeptBy

mutual

theorem keptBy_of_compileAt : ∀ {f : Filter} {q : Position} {p : Predicate},
    f.compileAt q = .ok p → f.KeptBy p
  | .combine c [], _, _, h => by
    cases h
  | .combine c (f :: fs), _, _, h => by
    rw [compileAt] at h
    obtain ⟨ps, hps, rfl⟩ := map_eq_ok_iff.1 h
    exact .combine c (List.cons_ne_nil f fs) (forall₂_of_compileChildren hps)
  | .leaf l, _, _, h => by
    obtain ⟨c, hc, rfl⟩ := map_eq_ok_iff.1 h
    exact .leaf (Leaf.denotes_of_compile hc)

theorem forall₂_of_compileChildren : ∀ {fs : List Filter} {q : Position} {c : Combinator}
    {index : Nat} {ps : List Predicate}, compileChildren q c index fs = .ok ps →
    List.Forall₂ KeptBy fs ps
  | [], _, _, _, _, h => by
    cases h
    exact .nil
  | f :: fs, _, _, _, _, h => by
    rw [compileChildren] at h
    obtain ⟨p, hp, h⟩ := bind_eq_ok_iff.1 h
    obtain ⟨ps, hps, h⟩ := bind_eq_ok_iff.1 h
    cases h
    exact .cons (keptBy_of_compileAt hp) (forall₂_of_compileChildren hps)

end

/-- A filter that compiles keeps its tree: the combinators with their children in order, the number
of leaves, of which there is at least one, and the depth. In the place of each leaf stands the
condition that it denotes. No combinator is without children, every comparison is one of the claimed
time with a finite bound, and the path of an equality has segments without dots which joined by dots
are its operand. The same holds of a filter in wire form and the filter that it was checked to be. -/
theorem compile_keeps_tree :
    (∀ (f : Filter) (p : Predicate), f.compile = .ok p → f.KeptBy p) ∧
    ∀ (f : RawFilter) (p : Predicate), f.compile = .ok p →
      ∃ node, f.check .root = .ok node ∧ node.KeptBy p := by
  refine ⟨fun f p h => keptBy_of_compileAt h, fun f p h => ?_⟩
  obtain ⟨node, hnode, hp⟩ := bind_eq_ok_iff.1 h
  exact ⟨node, mapError_eq_ok_iff.1 hnode, keptBy_of_compileAt hp⟩

/-- A combinator of one child is kept, and a path is cut into its three segments. -/
theorem compile_keeps_tree_nested :
    let f : Filter := .and [.or [.single "type" (.string "post")],
      .many "slowEqual" [.string "value.content.channel", .string "intro"],
      .single "gte" (.ofJson (.number (.ofNat 4000)))]
    let p : Predicate := .combine .and [.combine .or [.condition (.text .type "post")],
      .condition (.slowEqual ["value", "content", "channel"] (.string "intro")),
      .condition (.compare "timestamp" .gte (.finite (.ofInt 4000)))]
    f.compile = .ok p ∧ f.raw.compile = .ok p ∧ f.KeptBy p ∧
      (∃ node, f.raw.check .root = .ok node ∧ node.KeptBy p) ∧
      p.depth = 3 ∧ p.conditions.length = 3 := by
  intro f p
  have hf : f.compile = .ok p := rfl
  have hraw : f.raw.compile = .ok p := rfl
  obtain ⟨hkept, hchecked⟩ := compile_keeps_tree
  exact ⟨hf, hraw, hkept f p hf, hchecked f.raw p hraw, rfl, rfl⟩

end Filter

end FeedQuery
