import FeedQuery.Proofs.Filter.Faults

/-!
Filters and their wire form. A filter is found again in its wire form, and of a filter in wire form
that passes the check nothing gets lost but operands that stand at a combinator.
-/
namespace FeedQuery

namespace RawFilter

/-- Whether a node has a list of children. -/
def isCombinator (f : RawFilter) : Bool := f.and?.isSome || f.or?.isSome

/-- A combinator with operands, which count for nothing there. -/
def HasStrayOperands (f : RawFilter) : Prop :=
  f.isCombinator = true ∧ (f.value?.isSome = true ∨ f.values?.isSome = true)

mutual

/-- The filter with `value` and `values` left out of every combinator, and nothing else changed. -/
def stripped : RawFilter → RawFilter
  | ⟨and?, or?, operator?, value?, values?⟩ =>
    let combinator := and?.isSome || or?.isSome
    ⟨strippedList? and?, strippedList? or?, operator?, if combinator then none else value?,
      if combinator then none else values?⟩

def strippedList? : Option (List RawFilter) → Option (List RawFilter)
  | none => none
  | some fs => some (strippedList fs)

def strippedList : List RawFilter → List RawFilter
  | [] => []
  | f :: fs => f.stripped :: strippedList fs

end

/-- At one node, being stripped already means that there are no operands to strip. -/
theorem operands_stripped_iff (and? or? : Option (List RawFilter)) (operator? : Option String)
    (value? : Option Value) (values? : Option (List Value)) :
    ((if (and?.isSome || or?.isSome) = true then none else value?) = value? ∧
      (if (and?.isSome || or?.isSome) = true then none else values?) = values?) ↔
      ¬ HasStrayOperands ⟨and?, or?, operator?, value?, values?⟩ := by
  by_cases hcombinator : (and?.isSome || or?.isSome) = true
  · cases value? <;> cases values? <;> simp [HasStrayOperands, isCombinator, hcombinator]
  · simp [HasStrayOperands, isCombinator, hcombinator]

mutual

/-- A filter is its stripped form exactly if no node of it has stray operands. -/
theorem stripped_eq_self_iff (p : Position) : (f : RawFilter) →
    (f.stripped = f ↔ ∀ q ∈ f.nodes p, ¬ q.2.HasStrayOperands)
  | ⟨and?, or?, operator?, value?, values?⟩ => by
    have hand := strippedList?_eq_self_iff p .and and?
    have hor := strippedList?_eq_self_iff p .or or?
    have hnode := operands_stripped_iff and? or? operator? value? values?
    rw [nodes, List.forall_mem_cons, List.forall_mem_append, ← hand, ← hor, ← hnode, stripped]
    simp only [RawFilter.mk.injEq, true_and]
    tauto

theorem strippedList?_eq_self_iff (p : Position) (c : Combinator) :
    (fs? : Option (List RawFilter)) →
      (strippedList? fs? = fs? ↔ ∀ q ∈ nodesBelow p c fs?, ¬ q.2.HasStrayOperands)
  | none => by simp [strippedList?, nodesBelow]
  | some fs => by
    rw [strippedList?, nodesBelow, Option.some.injEq]
    exact strippedList_eq_self_iff p c 0 fs

theorem strippedList_eq_self_iff (p : Position) (c : Combinator) (index : Nat) :
    (fs : List RawFilter) →
      (strippedList fs = fs ↔ ∀ q ∈ nodesOf p c index fs, ¬ q.2.HasStrayOperands)
  | [] => by simp [strippedList, nodesOf]
  | f :: fs => by
    rw [strippedList, nodesOf, List.cons.injEq, List.forall_mem_append,
      stripped_eq_self_iff (p.child c index) f, strippedList_eq_self_iff p c (index + 1) fs]

end

mutual

/-- The check looks at no operands of combinators. -/
theorem check_stripped (p : Position) : (f : RawFilter) → f.stripped.check p = f.check p
  | ⟨some cs, none, none, _, _⟩ => by
    have hchildren := checkChildren_strippedList p .and 0 cs
    simp [stripped, strippedList?, check, hchildren]
  | ⟨none, some cs, none, _, _⟩ => by
    have hchildren := checkChildren_strippedList p .or 0 cs
    simp [stripped, strippedList?, check, hchildren]
  | ⟨none, none, some _, _, _⟩ => by simp [stripped, strippedList?]
  | ⟨none, none, none, _, _⟩ => by simp [stripped, strippedList?]
  | ⟨some _, some _, _, _, _⟩ => by simp [stripped, strippedList?, check, populated]
  | ⟨some _, none, some _, _, _⟩ => by simp [stripped, strippedList?, check, populated]
  | ⟨none, some _, some _, _, _⟩ => by simp [stripped, strippedList?, check, populated]

theorem checkChildren_strippedList (p : Position) (c : Combinator) (index : Nat) :
    (fs : List RawFilter) → checkChildren p c index (strippedList fs) = checkChildren p c index fs
  | [] => rfl
  | f :: fs => by
    rw [strippedList, checkChildren, checkChildren, check_stripped (p.child c index) f,
      checkChildren_strippedList p c (index + 1) fs]

end

mutual

/-- The wire form of a filter that is made by the check. -/
theorem raw_of_check (p : Position) : (f : RawFilter) → {node : Filter} →
    f.check p = .ok node → node.raw = f.stripped
  | ⟨some cs, none, none, _, _⟩, node, h => by
    rw [check] at h
    obtain ⟨nodes, hnodes, rfl⟩ := map_eq_ok_iff.1 h
    simp [Filter.raw, stripped, strippedList?, rawChildren_of_checkChildren p .and 0 cs hnodes]
  | ⟨none, some cs, none, _, _⟩, node, h => by
    rw [check] at h
    obtain ⟨nodes, hnodes, rfl⟩ := map_eq_ok_iff.1 h
    simp [Filter.raw, stripped, strippedList?, rawChildren_of_checkChildren p .or 0 cs hnodes]
  | ⟨none, none, some operator, value?, values?⟩, node, h => by
    rw [check] at h
    cases h
    simp [Filter.raw, stripped, strippedList?]
  | ⟨none, none, none, _, _⟩, _, h => by cases h
  | ⟨some _, some _, _, _, _⟩, _, h => by cases h
  | ⟨some _, none, some _, _, _⟩, _, h => by cases h
  | ⟨none, some _, some _, _, _⟩, _, h => by cases h

theorem rawChildren_of_checkChildren (p : Position) (c : Combinator) (index : Nat) :
    (fs : List RawFilter) → {nodes : List Filter} → checkChildren p c index fs = .ok nodes →
      Filter.rawChildren nodes = strippedList fs
  | [], _, h => by
    cases h
    rfl
  | f :: fs, _, h => by
    rw [checkChildren] at h
    obtain ⟨node, hnode, h⟩ := bind_eq_ok_iff.1 h
    obtain ⟨nodes, hnodes, h⟩ := bind_eq_ok_iff.1 h
    cases h
    rw [Filter.rawChildren, strippedList, raw_of_check (p.child c index) f hnode,
      rawChildren_of_checkChildren p c (index + 1) fs hnodes]

end

end RawFilter

namespace Filter

mutual

/-- The check finds a filter again in its wire form. -/
theorem check_raw (p : Position) : (f : Filter) → f.raw.check p = .ok f
  | .combine .and children => by
    rw [raw, RawFilter.check, checkChildren_rawChildren p .and 0 children]
    rfl
  | .combine .or children => by
    rw [raw, RawFilter.check, checkChildren_rawChildren p .or 0 children]
    rfl
  | .leaf l => rfl

theorem checkChildren_rawChildren (p : Position) (c : Combinator) (index : Nat) :
    (fs : List Filter) → RawFilter.checkChildren p c index (rawChildren fs) = .ok fs
  | [] => rfl
  | f :: fs => by
    rw [rawChildren, RawFilter.checkChildren, check_raw (p.child c index) f,
      checkChildren_rawChildren p c (index + 1) fs]
    rfl

end

/-- A filter in wire form is checked to the same filter again, at any position. The other way round,
what the check makes of a filter has as its wire form that filter without the operands of its
combinators. So it is that filter itself exactly if no combinator has operands, and with them and
without them the check comes to the same. -/
theorem wire_form_round_trip :
    (∀ (f : Filter) (p : Position), f.raw.check p = .ok f) ∧
    (∀ (i : RawFilter) (p : Position) (f : Filter), i.check p = .ok f →
      f.raw = i.stripped ∧ (f.raw = i ↔ ∀ q ∈ i.nodes p, ¬ q.2.HasStrayOperands)) ∧
    ∀ (i : RawFilter) (p : Position), i.stripped.check p = i.check p := by
  refine ⟨fun f p => check_raw p f, ?_, fun i p => i.check_stripped p⟩
  intro i p f h
  have hraw := i.raw_of_check p h
  exact ⟨hraw, by rw [hraw, i.stripped_eq_self_iff p]⟩

/-- An inner combinator that has both operands, one of them null: they are lost, and those of the
leaf below it are kept. -/
theorem wire_form_round_trip_stray :
    let leaf : RawFilter := ⟨none, none, some "type", some (.string "post"), some []⟩
    let i : RawFilter :=
      ⟨some [⟨none, some [leaf], none, some .null, some [.null]⟩], none, none, none, none⟩
    let f : Filter := .and [.or [.leaf ⟨"type", some (.string "post"), some []⟩]]
    i.check .root = .ok f ∧
      f.raw = ⟨some [⟨none, some [leaf], none, none, none⟩], none, none, none, none⟩ ∧
      f.raw ≠ i := by
  intro leaf i f
  have hcheck : i.check .root = .ok f := rfl
  obtain ⟨hraw, hsame⟩ := wire_form_round_trip.2.1 i .root f hcheck
  refine ⟨hcheck, hraw, fun h => ?_⟩
  have hinner : (Position.root.child .and 0,
      (⟨none, some [leaf], none, some .null, some [.null]⟩ : RawFilter)) ∈ i.nodes .root :=
    RawFilter.mem_nodes_iff.2 ⟨[(.and, 0)], rfl, rfl⟩
  exact hsame.1 h _ hinner ⟨rfl, .inl rfl⟩

end Filter

end FeedQuery
