import FeedQuery.Proofs.Filter.Skeleton

/-!
The passes over a filter go down its tree: the check of its wire form, its compilation, and the
evaluation of what comes out. Each is given here with a bound on how many of its calls are nested in
each other, one call for each node on the way down, and comes to the same within the depth of the
tree.
-/
namespace FeedQuery

namespace RawFilter

mutual

/-- The number of nodes on the longest way down, through lists of both kinds. -/
def depth : RawFilter → Nat
  | ⟨and?, or?, _, _, _⟩ => 1 + max (depths? and?) (depths? or?)

def depths? : Option (List RawFilter) → Nat
  | none => 0
  | some fs => depths fs

def depths : List RawFilter → Nat
  | [] => 0
  | f :: fs => max f.depth (depths fs)

end

mutual

/-- Checks a filter with at most so many nested calls, and gives nothing where more are needed. -/
def checkWithin : Nat → Position → RawFilter → Option (Except ShapeError Filter)
  | 0, _, _ => none
  | n + 1, p, ⟨some cs, none, none, _, _⟩ => do
    return (← checkChildrenWithin n p .and 0 cs).map (.combine .and)
  | n + 1, p, ⟨none, some cs, none, _, _⟩ => do
    return (← checkChildrenWithin n p .or 0 cs).map (.combine .or)
  | _ + 1, _, ⟨none, none, some operator, value?, values?⟩ =>
    some (.ok (.leaf ⟨operator, value?, values?⟩))
  | _ + 1, p, f => some (.error ⟨p, f.populated⟩)

def checkChildrenWithin (n : Nat) (p : Position) (c : Combinator) (index : Nat) :
    List RawFilter → Option (Except ShapeError (List Filter))
  | [] => some (.ok [])
  | f :: fs => do
    match ← checkWithin n (p.child c index) f with
    | .error e => return .error e
    | .ok child => return (← checkChildrenWithin n p c (index + 1) fs).map (child :: ·)

end

mutual

theorem checkWithin_of_depth_le : (f : RawFilter) → {n : Nat} → f.depth ≤ n → (p : Position) →
    f.checkWithin n p = some (f.check p)
  | ⟨and?, or?, operator?, value?, values?⟩, 0, h, p => by
    rw [depth] at h
    omega
  | ⟨some cs, none, none, _, _⟩, n + 1, h, p => by
    simp only [depth, depths?] at h
    rw [checkWithin, check, checkChildrenWithin_of_depths_le cs (by omega) p .and 0]
    rfl
  | ⟨none, some cs, none, _, _⟩, n + 1, h, p => by
    simp only [depth, depths?] at h
    rw [checkWithin, check, checkChildrenWithin_of_depths_le cs (by omega) p .or 0]
    rfl
  | ⟨none, none, some _, _, _⟩, _ + 1, _, _ => rfl
  | ⟨none, none, none, _, _⟩, _ + 1, _, _ => rfl
  | ⟨some _, some _, _, _, _⟩, _ + 1, _, _ => rfl
  | ⟨some _, none, some _, _, _⟩, _ + 1, _, _ => rfl
  | ⟨none, some _, some _, _, _⟩, _ + 1, _, _ => rfl

theorem checkChildrenWithin_of_depths_le : (fs : List RawFilter) → {n : Nat} → depths fs ≤ n →
    (p : Position) → (c : Combinator) → (index : Nat) →
    checkChildrenWithin n p c index fs = some (checkChildren p c index fs)
  | [], _, _, _, _, _ => rfl
  | f :: fs, n, h, p, c, index => by
    rw [depths, Nat.max_le] at h
    have hchild := checkWithin_of_depth_le f h.1 (p.child c index)
    have hrest := checkChildrenWithin_of_depths_le fs h.2 p c (index + 1)
    rw [checkChildrenWithin, checkChildren, hchild]
    cases check (p.child c index) f with
    | error e => rfl
    | ok node =>
      simp only [Option.bind_eq_bind, Option.bind_some, hrest]
      cases checkChildren p c (index + 1) fs <;> rfl

end

mutual

/-- A check leaves the depth as it is: a node that passes has one list of children or none. -/
theorem depth_of_check : (f : RawFilter) → {p : Position} → {node : Filter} →
    f.check p = .ok node → node.depth = f.depth
  | ⟨some cs, none, none, _, _⟩, p, node, h => by
    obtain ⟨nodes, hnodes, rfl⟩ := map_eq_ok_iff.1 h
    rw [Filter.depth, depth, depths_of_checkChildren cs hnodes, depths?, depths?, Nat.max_zero]
  | ⟨none, some cs, none, _, _⟩, p, node, h => by
    obtain ⟨nodes, hnodes, rfl⟩ := map_eq_ok_iff.1 h
    rw [Filter.depth, depth, depths_of_checkChildren cs hnodes, depths?, depths?, Nat.zero_max]
  | ⟨none, none, some _, _, _⟩, _, _, h => by
    cases h
    rfl
  | ⟨none, none, none, _, _⟩, _, _, h => nomatch h
  | ⟨some _, some _, _, _, _⟩, _, _, h => nomatch h
  | ⟨some _, none, some _, _, _⟩, _, _, h => nomatch h
  | ⟨none, some _, some _, _, _⟩, _, _, h => nomatch h

theorem depths_of_checkChildren : (fs : List RawFilter) → {p : Position} → {c : Combinator} →
    {index : Nat} → {nodes : List Filter} → checkChildren p c index fs = .ok nodes →
    Filter.depths nodes = depths fs
  | [], _, _, _, _, h => by
    cases h
    rfl
  | f :: fs, p, c, index, nodes, h => by
    rw [checkChildren] at h
    obtain ⟨node, hnode, h⟩ := bind_eq_ok_iff.1 h
    obtain ⟨rest, hrest, h⟩ := bind_eq_ok_iff.1 h
    cases h
    rw [Filter.depths, depths, depth_of_check f hnode, depths_of_checkChildren fs hrest]

end

end RawFilter

namespace Filter

mutual

/-- Compiles a filter with at most so many nested calls. -/
def compileWithin : Nat → Position → Filter → Option (Except FilterError Predicate)
  | 0, _, _ => none
  | _ + 1, p, .combine c [] => some (.error ⟨p, .emptyList c⟩)
  | n + 1, p, .combine c (f :: fs) => do
    return (← compileChildrenWithin n p c 0 (f :: fs)).map (.combine c)
  | _ + 1, p, .leaf l => some ((l.compile p).map .condition)

def compileChildrenWithin (n : Nat) (p : Position) (c : Combinator) (index : Nat) :
    List Filter → Option (Except FilterError (List Predicate))
  | [] => some (.ok [])
  | f :: fs => do
    match ← compileWithin n (p.child c index) f with
    | .error e => return .error e
    | .ok child => return (← compileChildrenWithin n p c (index + 1) fs).map (child :: ·)

end

mutual

theorem compileWithin_of_depth_le : (f : Filter) → {n : Nat} → f.depth ≤ n → (p : Position) →
    f.compileWithin n p = some (f.compileAt p)
  | .combine c fs, 0, h, p => by
    rw [depth] at h
    omega
  | .leaf l, 0, h, p => by
    rw [depth] at h
    omega
  | .combine c [], _ + 1, _, _ => rfl
  | .combine c (f :: fs), n + 1, h, p => by
    rw [depth] at h
    rw [compileWithin, compileAt, compileChildrenWithin_of_depths_le (f :: fs) (by omega) p c 0]
    rfl
  | .leaf l, _ + 1, _, _ => rfl

theorem compileChildrenWithin_of_depths_le : (fs : List Filter) → {n : Nat} → depths fs ≤ n →
    (p : Position) → (c : Combinator) → (index : Nat) →
    compileChildrenWithin n p c index fs = some (compileChildren p c index fs)
  | [], _, _, _, _, _ => rfl
  | f :: fs, n, h, p, c, index => by
    rw [depths, Nat.max_le] at h
    have hchild := compileWithin_of_depth_le f h.1 (p.child c index)
    have hrest := compileChildrenWithin_of_depths_le fs h.2 p c (index + 1)
    rw [compileChildrenWithin, compileChildren, hchild]
    cases compileAt (p.child c index) f with
    | error e => rfl
    | ok q =>
      simp only [Option.bind_eq_bind, Option.bind_some, hrest]
      cases compileChildren p c (index + 1) fs <;> rfl

end

end Filter

namespace Predicate

mutual

/-- Evaluates a predicate with at most so many nested calls. Children behind the one that decides
are not called. -/
def holdsWithin (m : Message) : Nat → Predicate → Option Bool
  | 0, _ => none
  | _ + 1, .condition c => some (c.holds m)
  | n + 1, .combine .and ps => allHoldWithin m n ps
  | n + 1, .combine .or ps => anyHoldsWithin m n ps

def allHoldWithin (m : Message) (n : Nat) : List Predicate → Option Bool
  | [] => some true
  | p :: ps => do if ← holdsWithin m n p then allHoldWithin m n ps else return false

def anyHoldsWithin (m : Message) (n : Nat) : List Predicate → Option Bool
  | [] => some false
  | p :: ps => do if ← holdsWithin m n p then return true else anyHoldsWithin m n ps

end

variable (m : Message)

mutual

theorem holdsWithin_of_depth_le : (p : Predicate) → {n : Nat} → p.depth ≤ n →
    p.holdsWithin m n = some (p.holds m)
  | .condition c, 0, h => by
    rw [depth] at h
    omega
  | .combine c ps, 0, h => by
    rw [depth] at h
    omega
  | .condition _, _ + 1, _ => rfl
  | .combine .and ps, n + 1, h => by
    rw [depth] at h
    exact (allHoldWithin_and_anyHoldsWithin_of_depths_le ps (by omega)).1
  | .combine .or ps, n + 1, h => by
    rw [depth] at h
    exact (allHoldWithin_and_anyHoldsWithin_of_depths_le ps (by omega)).2

theorem allHoldWithin_and_anyHoldsWithin_of_depths_le : (ps : List Predicate) → {n : Nat} →
    depths ps ≤ n →
    allHoldWithin m n ps = some (allHold m ps) ∧ anyHoldsWithin m n ps = some (anyHolds m ps)
  | [], _, _ => ⟨rfl, rfl⟩
  | p :: ps, n, h => by
    rw [depths, Nat.max_le] at h
    have hchild := holdsWithin_of_depth_le p h.1
    have hrest := allHoldWithin_and_anyHoldsWithin_of_depths_le ps h.2
    rw [allHoldWithin, anyHoldsWithin, allHold, anyHolds, hchild, hrest.1, hrest.2]
    cases p.holds m <;> exact ⟨rfl, rfl⟩

end

end Predicate

namespace RawFilter

/-- The passes over a filter do with so many nested calls: its check, whether or not it fails, and
for what passes the check its compilation and the evaluation of the predicate. -/
structure DescendsWithin (n : Nat) (f : RawFilter) : Prop where
  depth : ∀ p node, f.check p = .ok node → node.depth ≤ n
  check : ∀ p, f.checkWithin n p = some (f.check p)
  compile : ∀ p node, f.check p = .ok node →
    ∀ q, node.compileWithin n q = some (node.compileAt q)
  holds : ∀ predicate, f.compile = .ok predicate →
    ∀ m, predicate.holdsWithin m n = some (predicate.holds m)

theorem depth_of_compile {f : RawFilter} {predicate : Predicate} (h : f.compile = .ok predicate) :
    predicate.depth = f.depth := by
  obtain ⟨node, hnode, hcompile⟩ := bind_eq_ok_iff.1 h
  rw [(Filter.keptBy_of_compileAt hcompile).depth, f.depth_of_check (mapError_eq_ok_iff.1 hnode)]

theorem descendsWithin_of_depth_le {f : RawFilter} {n : Nat} (h : f.depth ≤ n) :
    f.DescendsWithin n where
  depth _ _ hnode := f.depth_of_check hnode ▸ h
  check := f.checkWithin_of_depth_le h
  compile _ node hnode := node.compileWithin_of_depth_le (f.depth_of_check hnode ▸ h)
  holds predicate hpredicate m :=
    predicate.holdsWithin_of_depth_le m (depth_of_compile hpredicate ▸ h)

end RawFilter

namespace Filter

/-- A filter of some depth that compiles, while no pass over it does with fewer nested calls. -/
structure NeedsCalls (n : Nat) (f : Filter) : Prop where
  depth : f.depth = n
  compiles : ∃ predicate, f.compile = .ok predicate
  check : ∀ k < n, ∀ p, f.raw.checkWithin k p = none
  compile : ∀ k < n, ∀ p, f.compileWithin k p = none
  holds : ∀ predicate, f.compile = .ok predicate → ∀ k < n, ∀ m, predicate.holdsWithin m k = none

end Filter

end FeedQuery
