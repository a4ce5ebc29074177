import FeedQuery.Proofs.Filter.Refusal
import FeedQuery.Proofs.FirstFault

/-!
Which fault of a filter is reported. The nodes are gone through twice in pre-order: first for nodes
of none or several shapes, then for empty lists, unknown operators and refused operands.
-/
namespace FeedQuery

namespace RawFilter

/-- The children of a node, where it has a list of them. -/
def list? (f : RawFilter) : Combinator → Option (List RawFilter)
  | .and => f.and?
  | .or => f.or?

mutual

/-- The nodes of a tree in pre-order, with their positions. -/
def nodes (p : Position) : RawFilter → List (Position × RawFilter)
  | ⟨and?, or?, operator?, value?, values?⟩ => (p, ⟨and?, or?, operator?, value?, values?⟩) ::
    (nodesBelow p .and and? ++ nodesBelow p .or or?)

def nodesBelow (p : Position) (c : Combinator) :
    Option (List RawFilter) → List (Position × RawFilter)
  | none => []
  | some fs => nodesOf p c 0 fs

def nodesOf (p : Position) (c : Combinator) (index : Nat) :
    List RawFilter → List (Position × RawFilter)
  | [] => []
  | f :: fs => nodes (p.child c index) f ++ nodesOf p c (index + 1) fs

end

/-- The node that steps from the root lead to. -/
def node? : List (Combinator × Nat) → RawFilter → Option RawFilter
  | [], f => some f
  | (c, index) :: steps, f => ((f.list? c).bind fun fs => fs[index]?).bind (node? steps)

/-- A node that sets exactly one of the fields that give it its shape. -/
def Shaped (f : RawFilter) : Prop := f.populated.length = 1

/-- What else can be wrong with a node. -/
inductive Defect (f : RawFilter) : Fault → Prop where
  | emptyList {c : Combinator} (h : f.list? c = some []) : Defect f (.emptyList c)
  | unknownOperator {name : String} (h : f.operator? = some name)
      (hname : ∀ op : Operator, op.name ≠ name) : Defect f (.unknownOperator name)
  | operand {op : Operator} {e : OperandError} (h : f.operator? = some op.name)
      (he : op.Refuses f.value? f.values? e) : Defect f (.operand op.name e)

/-- A node without any fault. -/
structure Sound (f : RawFilter) : Prop where
  shaped : f.Shaped
  nonempty : ∀ c, f.list? c ≠ some []
  leaf : ∀ name, f.operator? = some name →
    ∃ op : Operator, op.name = name ∧ op.Accepts f.value? f.values?

theorem sound_iff {f : RawFilter} : f.Sound ↔ f.Shaped ∧ ∀ fault, ¬ f.Defect fault := by
  constructor
  · rintro ⟨hshaped, hlist, hleaf⟩
    refine ⟨hshaped, ?_⟩
    rintro _ (h | ⟨h, hname⟩ | ⟨h, he⟩)
    · exact hlist _ h
    · obtain ⟨op, hop, -⟩ := hleaf _ h
      exact hname op hop
    · obtain ⟨op', hop', haccepts⟩ := hleaf _ h
      cases Operator.name_injective hop'
      obtain ⟨c, hc⟩ := Operator.construct_isOk_iff.2 haccepts
      rw [Operator.construct_eq_error_iff.2 he] at hc
      cases hc
  · rintro ⟨hshaped, hdefect⟩
    refine ⟨hshaped, fun c h => hdefect _ (.emptyList h), ?_⟩
    intro name h
    by_cases hname : ∀ op : Operator, op.name ≠ name
    · exact absurd (.unknownOperator h hname) (hdefect _)
    · obtain ⟨op, rfl⟩ : ∃ op : Operator, op.name = name := by simpa using hname
      refine ⟨op, rfl, Operator.construct_isOk_iff.1 ?_⟩
      cases hc : op.construct f.value? f.values? with
      | ok c => exact ⟨c, rfl⟩
      | error e => exact absurd (.operand h (Operator.construct_eq_error_iff.1 hc)) (hdefect _)

theorem Shaped.operator?_eq_none {f : RawFilter} {c : Combinator} {fs : List RawFilter}
    (hf : f.Shaped) (h : f.list? c = some fs) : f.operator? = none := by
  obtain ⟨and?, or?, operator?, _, _⟩ := f
  cases c <;> cases and? <;> cases or? <;> cases operator? <;>
    simp_all [Shaped, populated, list?]

theorem Shaped.combinator_eq {f : RawFilter} {c d : Combinator} {fs gs : List RawFilter}
    (hf : f.Shaped) (hc : f.list? c = some fs) (hd : f.list? d = some gs) : c = d := by
  obtain ⟨and?, or?, _, _, _⟩ := f
  cases c <;> cases d <;> cases and? <;> cases or? <;> simp_all [Shaped, populated, list?]

/-- A node of one shape has at most one defect. -/
theorem Defect.unique {f : RawFilter} {a b : Fault} (hf : f.Shaped) (ha : f.Defect a)
    (hb : f.Defect b) : a = b := by
  rcases ha with ha | ⟨ha, hname⟩ | ⟨ha, hrefuses⟩
  · rcases hb with hb | ⟨hb, -⟩ | ⟨hb, -⟩
    · rw [hf.combinator_eq ha hb]
    · cases hb.symm.trans (hf.operator?_eq_none ha)
    · cases hb.symm.trans (hf.operator?_eq_none ha)
  · rcases hb with hb | ⟨hb, -⟩ | ⟨hb, -⟩
    · cases ha.symm.trans (hf.operator?_eq_none hb)
    · rw [Option.some.inj (ha.symm.trans hb)]
    · exact absurd (Option.some.inj (hb.symm.trans ha)) (hname _)
  · rcases hb with hb | ⟨hb, hname⟩ | ⟨hb, hrefuses'⟩
    · cases ha.symm.trans (hf.operator?_eq_none hb)
    · exact absurd (Option.some.inj (ha.symm.trans hb)) (hname _)
    · cases Operator.name_injective (Option.some.inj (ha.symm.trans hb))
      rw [← Operator.construct_eq_error_iff] at hrefuses hrefuses'
      cases hrefuses.symm.trans hrefuses'
      rfl

/-- A node that the first pass stops at. -/
def Misshapen (q : Position × RawFilter) (e : ShapeError) : Prop :=
  ¬ q.2.Shaped ∧ e = ⟨q.1, q.2.populated⟩

/-- A node that the second pass stops at. -/
def Defective (q : Position × RawFilter) (e : FilterError) : Prop :=
  e.position = q.1 ∧ q.2.Defect e.fault

theorem not_misshapen {q : Position × RawFilter} (h : q.2.Shaped) (e : ShapeError) :
    ¬ Misshapen q e := fun he => he.1 h

mutual

theorem check_reports (p : Position) : (f : RawFilter) →
    ReportsFirst Misshapen (f.nodes p) (f.check p)
  | ⟨some cs, none, none, _, _⟩ => by
    rw [nodes, nodesBelow, nodesBelow, List.append_nil, check]
    exact .cons (not_misshapen rfl) ((checkChildren_reports p .and 0 cs).map _)
  | ⟨none, some cs, none, _, _⟩ => by
    rw [nodes, nodesBelow, nodesBelow, List.nil_append, check]
    exact .cons (not_misshapen rfl) ((checkChildren_reports p .or 0 cs).map _)
  | ⟨none, none, some operator, value?, values?⟩ => by
    rw [nodes, nodesBelow, nodesBelow, check]
    exact .cons (not_misshapen rfl) (.nil _)
  | ⟨none, none, none, _, _⟩ => .here ⟨by simp [Shaped, populated], rfl⟩
  | ⟨some _, some _, _, _, _⟩ => .here ⟨by simp [Shaped, populated], rfl⟩
  | ⟨some _, none, some _, _, _⟩ => .here ⟨by simp [Shaped, populated], rfl⟩
  | ⟨none, some _, some _, _, _⟩ => .here ⟨by simp [Shaped, populated], rfl⟩

theorem checkChildren_reports (p : Position) (c : Combinator) (index : Nat) :
    (fs : List RawFilter) → ReportsFirst Misshapen (nodesOf p c index fs)
      (checkChildren p c index fs)
  | [] => .nil _
  | f :: fs => by
    rw [nodesOf, checkChildren]
    refine (check_reports (p.child c index) f).append fun child _ => ?_
    exact (checkChildren_reports p c (index + 1) fs).map (child :: ·)

end

theorem eq_nil_iff_of_checkChildren {p : Position} {c : Combinator} {index : Nat}
    {fs : List RawFilter} {nodes : List Filter} (h : checkChildren p c index fs = .ok nodes) :
    nodes = [] ↔ fs = [] := by
  cases fs with
  | nil =>
    cases h
    simp
  | cons f fs =>
    rw [checkChildren] at h
    obtain ⟨child, -, h⟩ := bind_eq_ok_iff.1 h
    obtain ⟨rest, -, h⟩ := bind_eq_ok_iff.1 h
    cases h
    simp

/-- At a combinator only its list can be at fault, by being empty. -/
theorem compileAt_combine_reports {p : Position} {f : RawFilter} {c : Combinator}
    {fs : List RawFilter} {nodes : List Filter} {l : List (Position × RawFilter)}
    (hf : f.Shaped) (hlist : f.list? c = some fs) (hnil : nodes = [] ↔ fs = [])
    (h : ReportsFirst Defective l (Filter.compileChildren p c 0 nodes)) :
    ReportsFirst Defective ((p, f) :: l) ((Filter.combine c nodes).compileAt p) := by
  cases nodes with
  | nil =>
    rw [hnil.1 rfl] at hlist
    exact .here ⟨rfl, .emptyList hlist⟩
  | cons node nodes =>
    rw [Filter.compileAt]
    refine .cons ?_ (h.map _)
    rintro ⟨position, fault⟩ ⟨-, he⟩
    rcases he with he | ⟨he, -⟩ | ⟨he, -⟩
    · rw [hf.combinator_eq he hlist, hlist] at he
      cases hnil.2 (Option.some.inj he)
    · cases he.symm.trans (hf.operator?_eq_none hlist)
    · cases he.symm.trans (hf.operator?_eq_none hlist)

theorem compile_leaf_reports (p : Position) (operator : String) (value? : Option Value)
    (values? : Option (List Value)) :
    ReportsFirst Defective [(p, ⟨none, none, some operator, value?, values?⟩)]
      (Leaf.compile ⟨operator, value?, values?⟩ p) := by
  rw [Leaf.compile, Operator.resolve]
  cases hop : Operator.ofName? operator with
  | none =>
    refine .here ⟨rfl, .unknownOperator rfl ?_⟩
    rintro op rfl
    rw [Operator.ofName?_name] at hop
    cases hop
  | some op =>
    have hname : op.name = operator := Operator.name_of_ofName? hop
    subst hname
    show ReportsFirst Defective _ ((op.construct value? values?).mapError _)
    cases hc : op.construct value? values? with
    | error e => exact .here ⟨rfl, .operand rfl (Operator.construct_eq_error_iff.1 hc)⟩
    | ok c =>
      have hsound : Sound ⟨none, none, some op.name, value?, values?⟩ := by
        refine ⟨rfl, by rintro (_ | _) <;> exact nofun, ?_⟩
        rintro _ ⟨⟩
        exact ⟨op, rfl, Operator.construct_isOk_iff.1 ⟨c, hc⟩⟩
      exact .cons (fun e he => (sound_iff.1 hsound).2 _ he.2) (.nil _)

mutual

theorem compileAt_reports : ∀ {f : RawFilter} {p : Position} {node : Filter},
    f.check p = .ok node → ReportsFirst Defective (f.nodes p) (node.compileAt p)
  | ⟨some cs, none, none, _, _⟩, p, _, h => by
    rw [check] at h
    obtain ⟨nodes, hnodes, rfl⟩ := map_eq_ok_iff.1 h
    rw [RawFilter.nodes, nodesBelow, nodesBelow, List.append_nil]
    exact compileAt_combine_reports (c := .and) rfl rfl (eq_nil_iff_of_checkChildren hnodes)
      (compileChildren_reports hnodes)
  | ⟨none, some cs, none, _, _⟩, p, _, h => by
    rw [check] at h
    obtain ⟨nodes, hnodes, rfl⟩ := map_eq_ok_iff.1 h
    rw [RawFilter.nodes, nodesBelow, nodesBelow, List.nil_append]
    exact compileAt_combine_reports (c := .or) rfl rfl (eq_nil_iff_of_checkChildren hnodes)
      (compileChildren_reports hnodes)
  | ⟨none, none, some operator, value?, values?⟩, p, _, h => by
    rw [check] at h
    cases h
    rw [RawFilter.nodes, nodesBelow, nodesBelow]
    exact (compile_leaf_reports p operator value? values?).map _
  | ⟨none, none, none, _, _⟩, _, _, h => by
    cases h
  | ⟨some _, some _, _, _, _⟩, _, _, h => by
    cases h
  | ⟨some _, none, some _, _, _⟩, _, _, h => by
    cases h
  | ⟨none, some _, some _, _, _⟩, _, _, h => by
    cases h

theorem compileChildren_reports : ∀ {fs : List RawFilter} {p : Position} {c : Combinator}
    {index : Nat} {nodes : List Filter}, checkChildren p c index fs = .ok nodes →
    ReportsFirst Defective (nodesOf p c index fs) (Filter.compileChildren p c index nodes)
  | [], _, _, _, _, h => by
    cases h
    exact .nil _
  | f :: fs, p, c, index, _, h => by
    rw [checkChildren] at h
    obtain ⟨node, hnode, h⟩ := bind_eq_ok_iff.1 h
    obtain ⟨nodes, hnodes, h⟩ := bind_eq_ok_iff.1 h
    cases h
    rw [nodesOf, Filter.compileChildren]
    refine (compileAt_reports hnode).append fun pred _ => ?_
    exact (compileChildren_reports hnodes).map (pred :: ·)

end

mutual

theorem mem_nodes_iff {q : Position} {g : RawFilter} : ∀ {f : RawFilter} {p : Position},
    (q, g) ∈ f.nodes p ↔ ∃ steps, f.node? steps = some g ∧ q = ⟨p.base, p.steps ++ steps⟩
  | ⟨and?, or?, operator?, value?, values?⟩, p => by
    rw [nodes, List.mem_cons, List.mem_append, mem_nodesBelow_iff, mem_nodesBelow_iff]
    constructor
    · rintro (h | ⟨index, steps, hg, hq⟩ | ⟨index, steps, hg, hq⟩)
      · cases h
        exact ⟨[], rfl, by rw [List.append_nil]⟩
      · exact ⟨(.and, index) :: steps, hg, hq⟩
      · exact ⟨(.or, index) :: steps, hg, hq⟩
    · rintro ⟨_ | ⟨⟨_ | _, index⟩, steps⟩, hg, hq⟩
      · cases hg
        rw [List.append_nil] at hq
        exact .inl (by rw [hq])
      · exact .inr (.inl ⟨index, steps, hg, hq⟩)
      · exact .inr (.inr ⟨index, steps, hg, hq⟩)

theorem mem_nodesBelow_iff {q : Position} {g : RawFilter} {c : Combinator} :
    ∀ {fs? : Option (List RawFilter)} {p : Position}, (q, g) ∈ nodesBelow p c fs? ↔
      ∃ index steps, (fs?.bind (·[index]?)).bind (node? steps) = some g ∧
        q = ⟨p.base, p.steps ++ (c, index) :: steps⟩
  | none, p => by simp [nodesBelow]
  | some fs, p => by
    rw [nodesBelow, mem_nodesOf_iff]
    simp

theorem mem_nodesOf_iff {q : Position} {g : RawFilter} {c : Combinator} :
    ∀ {fs : List RawFilter} {p : Position} {first : Nat}, (q, g) ∈ nodesOf p c first fs ↔
      ∃ index steps, fs[index]?.bind (node? steps) = some g ∧
        q = ⟨p.base, p.steps ++ (c, first + index) :: steps⟩
  | [], p, first => by simp [nodesOf]
  | f :: fs, p, first => by
    rw [nodesOf, List.mem_append, mem_nodes_iff, mem_nodesOf_iff]
    simp only [Position.base_child, Position.steps_child, List.append_assoc, List.singleton_append]
    constructor
    · rintro (⟨steps, hg, hq⟩ | ⟨index, steps, hg, hq⟩)
      · exact ⟨0, steps, hg, hq⟩
      · refine ⟨index + 1, steps, hg, ?_⟩
        rw [hq, Nat.add_assoc, Nat.add_comm 1]
    · rintro ⟨_ | index, steps, hg, hq⟩
      · exact .inl ⟨steps, hg, hq⟩
      · refine .inr ⟨index, steps, hg, ?_⟩
        rw [hq, Nat.add_assoc, Nat.add_comm 1]

end

/-- The fault that is reported of a filter: of the first node of none or several shapes, if there is
one, and otherwise of the first node with another defect. -/
def Reports (f : RawFilter) (e : FilterError) : Prop :=
  (∃ q, IsFirst (fun q => ¬ q.2.Shaped) (f.nodes .root) q ∧
    e = ⟨q.1, .shape q.2.populated⟩) ∨
  ((∀ q ∈ f.nodes .root, q.2.Shaped) ∧ ∃ q,
    IsFirst (fun q => ¬ q.2.Sound) (f.nodes .root) q ∧ e.position = q.1 ∧ q.2.Defect e.fault)

theorem Reports.unique {f : RawFilter} {e e' : FilterError} (h : f.Reports e)
    (h' : f.Reports e') : e = e' := by
  rcases h with ⟨q, hq, rfl⟩ | ⟨hshaped, q, hq, hp, hd⟩
  · rcases h' with ⟨q', hq', rfl⟩ | ⟨hshaped, -⟩
    · rw [hq.unique hq']
    · exact absurd (hshaped q hq.mem) hq.prop
  · rcases h' with ⟨q', hq', rfl⟩ | ⟨-, q', hq', hp', hd'⟩
    · exact absurd (hshaped q' hq'.mem) hq'.prop
    · obtain ⟨position, fault⟩ := e
      obtain ⟨position', fault'⟩ := e'
      cases hq.unique hq'
      cases hp.trans hp'.symm
      cases hd.unique (hshaped q hq.mem) hd'
      rfl

theorem Reports.not_sound {f : RawFilter} {e : FilterError} (h : f.Reports e) :
    ¬ ∀ q ∈ f.nodes .root, q.2.Sound := by
  intro hsound
  rcases h with ⟨q, hq, -⟩ | ⟨-, q, hq, -⟩
  · exact hq.prop (hsound q hq.mem).shaped
  · exact hq.prop (hsound q hq.mem)

/-- A filter compiles if all its nodes are sound, and else the reported fault is the one due. -/
theorem compile_cases (f : RawFilter) :
    (∃ pred, f.compile = .ok pred ∧ ∀ q ∈ f.nodes .root, q.2.Sound) ∨
      ∃ e, f.compile = .error e ∧ f.Reports e := by
  have hcheck := check_reports .root f
  cases hnode : f.check .root with
  | error e =>
    rw [hnode] at hcheck
    obtain ⟨q, hq, -, rfl⟩ := hcheck.of_error
    refine .inr ⟨⟨q.1, .shape q.2.populated⟩, ?_, .inl ⟨q, hq.congr ?_, rfl⟩⟩
    · rw [compile, hnode]
      rfl
    · intro r _
      exact ⟨fun ⟨_, h, _⟩ => h, fun h => ⟨_, h, rfl⟩⟩
  | ok node =>
    rw [hnode] at hcheck
    have hshaped : ∀ q ∈ f.nodes .root, q.2.Shaped := by
      intro q hq
      by_contra h
      exact hcheck.of_ok q hq _ ⟨h, rfl⟩
    have hcompile : f.compile = node.compileAt .root := by
      rw [compile, hnode]
      rfl
    have hreports := compileAt_reports hnode
    rw [hcompile]
    cases hpred : node.compileAt .root with
    | ok pred =>
      rw [hpred] at hreports
      refine .inl ⟨pred, rfl, fun q hq => sound_iff.2 ⟨hshaped q hq, ?_⟩⟩
      intro fault hd
      exact hreports.of_ok q hq ⟨q.1, fault⟩ ⟨rfl, hd⟩
    | error e =>
      rw [hpred] at hreports
      obtain ⟨q, hq, hp, hd⟩ := hreports.of_error
      refine .inr ⟨e, rfl, .inr ⟨hshaped, q, hq.congr ?_, hp, hd⟩⟩
      intro r hr
      constructor
      · rintro ⟨e', -, hd'⟩ hsound
        exact (sound_iff.1 hsound).2 _ hd'
      · intro hsound
        by_contra hnone
        refine hsound (sound_iff.2 ⟨hshaped r hr, fun fault hd' => hnone ?_⟩)
        exact ⟨⟨r.1, fault⟩, rfl, hd'⟩

/-- A filter compiles exactly if every node is sound. Otherwise the error is the fault of the first
node of none or several shapes in pre-order, with the fields that it sets, and only where there is
no such node that of the first node with an empty list, an unknown operator or refused operands.
Each error is named by the position of its node, which is the steps that lead to it. -/
theorem compile_reports_first_fault (f : RawFilter) :
    ((∃ pred, f.compile = .ok pred) ↔ ∀ q ∈ f.nodes .root, q.2.Sound) ∧
    (∀ e, f.compile = .error e ↔ f.Reports e) ∧
    (∀ p g, (p, g) ∈ f.nodes .root ↔ ∃ steps, f.node? steps = some g ∧ p = ⟨"where", steps⟩) ∧
    ∀ steps, Position.render ⟨"where", steps⟩ = "where" ++
      String.join (steps.map fun step => "." ++ step.1.name ++ "[" ++ toString step.2 ++ "]") := by
  refine ⟨?_, ?_, fun p g => mem_nodes_iff, fun steps => rfl⟩
  · constructor
    · rintro ⟨pred, hpred⟩
      rcases f.compile_cases with ⟨-, -, hsound⟩ | ⟨e, he, -⟩
      · exact hsound
      · rw [hpred] at he
        cases he
    · intro hsound
      rcases f.compile_cases with ⟨pred, hpred, -⟩ | ⟨e, -, he⟩
      · exact ⟨pred, hpred⟩
      · exact absurd hsound he.not_sound
  · intro e
    rcases f.compile_cases with ⟨pred, hpred, hsound⟩ | ⟨e', he', hreports⟩
    · rw [hpred]
      exact ⟨nofun, fun he => absurd hsound he.not_sound⟩
    · rw [he', Except.error.injEq]
      constructor
      · rintro rfl
        exact hreports
      · exact hreports.unique

/-- A node without any shape is reported, though an unknown operator stands before it. -/
example : compile ⟨some [⟨none, none, some "nosuch", none, none⟩, ⟨none, none, none, none, none⟩],
    none, none, none, none⟩ = .error ⟨⟨"where", [(.and, 1)]⟩, .shape []⟩ := rfl

end RawFilter

end FeedQuery
