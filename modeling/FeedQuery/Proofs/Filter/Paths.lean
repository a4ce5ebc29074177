import FeedQuery.Proofs.Filter.Faults
import FeedQuery.Proofs.Filter.WireForm
import FeedQuery.Proofs.Text.Cut

/-!
Paths of nodes. A path can be read back in one way only, so the path of an error names one node of
the filter, and this node is at fault by itself. Where a filter is carried changes nothing but the
front of the path.
-/
namespace FeedQuery

namespace Position

variable {s t : Combinator × Nat}

/-- A step behind its dot and before its closing bracket, where the next step begins. -/
def stepChars (s : Combinator × Nat) : List Char := s.1.name.toList ++ '[' :: Nat.toDigits 10 s.2

theorem toList_renderStep (s : Combinator × Nat) :
    (renderStep s).toList = '.' :: (stepChars s ++ [']']) := by
  simp [renderStep, stepChars, Nat.toString_eq_repr]

theorem toDigits_injective {i j : Nat} (h : Nat.toDigits 10 i = Nat.toDigits 10 j) : i = j := by
  have hread := congrArg (fun cs => Nat.ofDigitChars 10 cs 0) h
  simpa using hread

/-- The name of a combinator ends at the first opening bracket. -/
theorem stepChars_injective (h : stepChars s = stepChars t) : s = t := by
  have hopening (c : Combinator) : '[' ∉ c.name.toList := by cases c <;> decide
  obtain ⟨hname, hdigits⟩ := Text.append_cons_inj h (hopening s.1) (hopening t.1)
  have hcombinator : s.1 = t.1 := by
    cases hs : s.1 <;> cases ht : t.1 <;> simp_all [Combinator.name]
  exact Prod.ext hcombinator (toDigits_injective hdigits)

theorem closing_notMem_stepChars (s : Combinator × Nat) : ']' ∉ stepChars s := by
  have hname : ']' ∉ s.1.name.toList := by cases s.1 <;> decide
  have hdigits : ']' ∉ Nat.toDigits 10 s.2 := by
    intro h
    have hdigit : ']'.isDigit = true := Nat.isDigit_of_mem_toDigits (by decide) (by decide) h
    cases hdigit
  simp [stepChars, hname, hdigits]

/-- The first closing bracket ends the first step. -/
theorem renderStep_append_inj {rest rest' : List Char}
    (h : (renderStep s).toList ++ rest = (renderStep t).toList ++ rest') :
    s = t ∧ rest = rest' := by
  simp only [toList_renderStep, List.cons_append, List.append_assoc, List.nil_append,
    List.cons.injEq, true_and] at h
  obtain ⟨hstep, hrest⟩ :=
    Text.append_cons_inj h (closing_notMem_stepChars s) (closing_notMem_stepChars t)
  exact ⟨stepChars_injective hstep, hrest⟩

/-- A path is read back step by step. -/
theorem join_renderStep_injective {steps steps' : List (Combinator × Nat)}
    (h : String.join (steps.map renderStep) = String.join (steps'.map renderStep)) :
    steps = steps' := by
  induction steps generalizing steps' with
  | nil =>
    cases steps' with
    | nil => rfl
    | cons t steps' =>
      have hlist := congrArg String.toList h
      simp [toList_renderStep] at hlist
  | cons s steps ih =>
    cases steps' with
    | nil =>
      have hlist := congrArg String.toList h
      simp [toList_renderStep] at hlist
    | cons t steps' =>
      rw [List.map_cons, List.map_cons, String.join_cons, String.join_cons] at h
      have hlist := congrArg String.toList h
      rw [String.toList_append, String.toList_append] at hlist
      obtain ⟨rfl, hrest⟩ := renderStep_append_inj hlist
      rw [ih (String.toList_injective hrest)]

theorem render_injective (base : String) {steps steps' : List (Combinator × Nat)}
    (h : (⟨base, steps⟩ : Position).render = (⟨base, steps'⟩ : Position).render) :
    steps = steps' :=
  join_renderStep_injective ((String.append_right_inj base).1 h)

theorem render_child (p : Position) (c : Combinator) (index : Nat) :
    (p.child c index).render = p.render ++ renderStep (c, index) := by
  apply String.toList_injective
  simp [render]

/-- A path that leads to a node of a tree and to no other one. -/
def Names {α : Type} (node? : List (Combinator × Nat) → Option α) (base path : String) (a : α) :
    Prop :=
  ∃ steps, node? steps = some a ∧ render ⟨base, steps⟩ = path ∧
    ∀ other b, node? other = some b → render ⟨base, other⟩ = path → other = steps

theorem names_of_node? {α : Type} {node? : List (Combinator × Nat) → Option α}
    {steps : List (Combinator × Nat)} {a : α} (h : node? steps = some a) (base : String) :
    Names node? base (render ⟨base, steps⟩) a :=
  ⟨steps, h, rfl, fun _ _ _ hpath => render_injective base hpath⟩

end Position

/-- The same error of a filter that is carried elsewhere. -/
def ShapeError.rebase (base : String) (e : ShapeError) : ShapeError :=
  ⟨⟨base, e.position.steps⟩, e.found⟩

namespace RawFilter

variable {f : RawFilter} {e : ShapeError}

mutual

theorem check_rebase (base : String) (p : Position) : (f : RawFilter) →
    f.check ⟨base, p.steps⟩ = (f.check p).mapError (ShapeError.rebase base)
  | ⟨some cs, none, none, _, _⟩ => by
    rw [check, check, checkChildren_rebase base p .and 0 cs]
    cases checkChildren p .and 0 cs <;> rfl
  | ⟨none, some cs, none, _, _⟩ => by
    rw [check, check, checkChildren_rebase base p .or 0 cs]
    cases checkChildren p .or 0 cs <;> rfl
  | ⟨none, none, some _, _, _⟩ => rfl
  | ⟨none, none, none, _, _⟩ => rfl
  | ⟨some _, some _, _, _, _⟩ => rfl
  | ⟨some _, none, some _, _, _⟩ => rfl
  | ⟨none, some _, some _, _, _⟩ => rfl

theorem checkChildren_rebase (base : String) (p : Position) (c : Combinator) (index : Nat) :
    (fs : List RawFilter) → checkChildren ⟨base, p.steps⟩ c index fs =
      (checkChildren p c index fs).mapError (ShapeError.rebase base)
  | [] => rfl
  | f :: fs => by
    have hchild : check ((⟨base, p.steps⟩ : Position).child c index) f =
        (check (p.child c index) f).mapError (ShapeError.rebase base) :=
      check_rebase base (p.child c index) f
    rw [checkChildren, checkChildren, hchild, checkChildren_rebase base p c (index + 1) fs]
    cases check (p.child c index) f with
    | error e => rfl
    | ok node => cases checkChildren p c (index + 1) fs <;> rfl

end

theorem check_of_not_shaped (h : ¬ f.Shaped) (p : Position) :
    f.check p = .error ⟨p, f.populated⟩ := by
  rcases f with ⟨_ | _, _ | _, _ | _, _, _⟩ <;> first | rfl | exact absurd rfl h

/-- The node that a failing check stops at. -/
theorem exists_node_of_check {base : String} (h : f.check ⟨base, []⟩ = .error e) :
    ∃ steps g, f.node? steps = some g ∧ ¬ g.Shaped ∧ e = ⟨⟨base, steps⟩, g.populated⟩ := by
  have hreports := f.check_reports ⟨base, []⟩
  rw [h] at hreports
  obtain ⟨⟨q, g⟩, hq, hshaped, rfl⟩ := hreports.of_error
  obtain ⟨steps, hnode, rfl⟩ := mem_nodes_iff.1 hq.mem
  exact ⟨steps, g, hnode, hshaped, rfl⟩

end RawFilter

namespace Filter

/-- The children of a combinator of the given kind. -/
def list? (c : Combinator) : Filter → Option (List Filter)
  | .combine d fs => if d = c then some fs else none
  | .leaf _ => none

/-- The node that steps from the root lead to. -/
def node? : List (Combinator × Nat) → Filter → Option Filter
  | [], f => some f
  | (c, index) :: steps, f => ((f.list? c).bind fun fs => fs[index]?).bind (node? steps)

/-- What is wrong with a node by itself. -/
inductive FailsAs : Filter → Fault → Prop where
  | emptyList (c : Combinator) : FailsAs (.combine c []) (.emptyList c)
  | unknownOperator {l : Leaf} (h : ∀ op : Operator, op.name ≠ l.operator) :
      FailsAs (.leaf l) (.unknownOperator l.operator)
  | operand {l : Leaf} {op : Operator} {e : OperandError} (hname : op.name = l.operator)
      (h : op.construct l.value? l.values? = .error e) :
      FailsAs (.leaf l) (.operand l.operator e)

theorem rawChildren_eq_map (fs : List Filter) : rawChildren fs = fs.map raw := by
  induction fs with
  | nil => rfl
  | cons f fs ih => rw [rawChildren, ih, List.map_cons]

theorem list?_raw (f : Filter) (c : Combinator) :
    f.raw.list? c = (f.list? c).map (List.map raw) := by
  cases f with
  | combine d fs => cases d <;> cases c <;> simp [raw, RawFilter.list?, list?, rawChildren_eq_map]
  | leaf l => cases c <;> rfl

theorem node?_raw (steps : List (Combinator × Nat)) (f : Filter) :
    f.raw.node? steps = (f.node? steps).map raw := by
  induction steps generalizing f with
  | nil => rfl
  | cons step steps ih =>
    obtain ⟨c, index⟩ := step
    rw [RawFilter.node?, node?, list?_raw]
    cases f.list? c with
    | none => rfl
    | some fs =>
      simp only [Option.map_some, Option.bind_some, List.getElem?_map]
      cases fs[index]? with
      | none => rfl
      | some g => exact ih g

theorem failsAs_of_defect {g : Filter} {fault : Fault} (h : g.raw.Defect fault) :
    g.FailsAs fault := by
  cases g with
  | combine d fs =>
    rcases h with h | ⟨h, -⟩ | ⟨h, -⟩
    · rw [list?_raw, list?] at h
      split at h
      · rename_i hd
        subst hd
        have hnil : fs = [] := by simpa using h
        rw [hnil]
        exact .emptyList d
      · cases h
    · cases d <;> cases h
    · cases d <;> cases h
  | leaf l =>
    rcases h with ⟨h⟩ | ⟨h, hname⟩ | ⟨h, hrefuses⟩
    · rename_i c
      cases c <;> cases h
    · cases h
      exact .unknownOperator hname
    · have hname : l.operator = _ := Option.some.inj h
      rw [← hname]
      exact .operand hname.symm (Operator.construct_eq_error_iff.2 hrefuses)

/-- The node that a failing compilation stops at. -/
theorem exists_node_of_compileAt {f : Filter} {base : String} {e : FilterError}
    (h : f.compileAt ⟨base, []⟩ = .error e) :
    ∃ steps g, f.node? steps = some g ∧ e.position = ⟨base, steps⟩ ∧ g.FailsAs e.fault := by
  have hreports := RawFilter.compileAt_reports (check_raw ⟨base, []⟩ f)
  rw [h] at hreports
  obtain ⟨⟨q, _⟩, hq, hposition, hdefect⟩ := hreports.of_error
  obtain ⟨steps, hnode, rfl⟩ := RawFilter.mem_nodes_iff.1 hq.mem
  rw [node?_raw, Option.map_eq_some_iff] at hnode
  obtain ⟨g, hg, rfl⟩ := hnode
  exact ⟨steps, g, hg, hposition, failsAs_of_defect hdefect⟩

/-- Below any base different steps have different paths, which grow by the dotted kind and index of
each child. So the path of an error leads to one node only. After a failing check this node fails by
itself, with the path as its base; after a failing compilation it is an empty list of the kind that
is reported, or a leaf with the operator that is reported, which is unknown or refuses its operands
as reported. And below another base the check fails alike, with the same path behind the base. -/
theorem paths_name_nodes (base : String) :
    (∀ (p : Position) (c : Combinator) (index : Nat), (p.child c index).render =
      p.render ++ ("." ++ c.name ++ "[" ++ toString index ++ "]")) ∧
    (∀ steps steps', (⟨base, steps⟩ : Position).render = (⟨base, steps'⟩ : Position).render →
      steps = steps') ∧
    (∀ (f : RawFilter) e, f.check ⟨base, []⟩ = .error e → ∃ g,
      Position.Names (fun steps => f.node? steps) base e.position.render g ∧
        g.check ⟨e.position.render, []⟩ = .error ⟨⟨e.position.render, []⟩, e.found⟩) ∧
    (∀ (f : Filter) e, f.compileAt ⟨base, []⟩ = .error e → ∃ g,
      Position.Names (fun steps => f.node? steps) base e.position.render g ∧ g.FailsAs e.fault) ∧
    ∀ (f : RawFilter) e, f.check ⟨base, []⟩ = .error e →
      ∃ suffix, e.position.render = base ++ suffix ∧ ∀ base', ∃ e',
        f.check ⟨base', []⟩ = .error e' ∧ e'.position.render = base' ++ suffix ∧
          e'.found = e.found := by
  refine ⟨Position.render_child, fun _ _ => Position.render_injective base, ?_, ?_, ?_⟩
  · intro f e h
    obtain ⟨steps, g, hnode, hshaped, rfl⟩ := RawFilter.exists_node_of_check h
    exact ⟨g, Position.names_of_node? hnode base, RawFilter.check_of_not_shaped hshaped _⟩
  · intro f e h
    obtain ⟨steps, g, hnode, hposition, hfails⟩ := exists_node_of_compileAt h
    rw [hposition]
    exact ⟨g, Position.names_of_node? hnode base, hfails⟩
  · intro f e h
    obtain ⟨steps, g, -, -, rfl⟩ := RawFilter.exists_node_of_check h
    refine ⟨String.join (steps.map Position.renderStep), rfl, fun base' => ?_⟩
    refine ⟨⟨⟨base', steps⟩, g.populated⟩, ?_, rfl, rfl⟩
    rw [RawFilter.check_rebase base' ⟨base, []⟩, h]
    rfl

/-- A node without any shape stands in the twelfth place of a list, and an operator that takes a
number has none there. The errors lead to these nodes, and not to the second place, which has the
path up to the first digit. -/
theorem paths_name_nodes_twelfth :
    let flags := List.replicate 11 (bare "isRoot")
    let nothing : RawFilter := ⟨none, none, none, none, none⟩
    let f : RawFilter := ⟨none, some (flags.map raw ++ [nothing]), none, none, none⟩
    let g : Filter := .or (flags ++ [bare "lt"])
    let e : ShapeError := ⟨⟨"where", [(.or, 11)]⟩, []⟩
    let e' : FilterError := ⟨⟨"where", [(.or, 11)]⟩, .operand "lt" .missing⟩
    f.check ⟨"where", []⟩ = .error e ∧ e.position.render = "where.or[11]" ∧
      (∃ h, Position.Names (fun steps => f.node? steps) "where" "where.or[11]" h ∧
        h.check ⟨"where.or[11]", []⟩ = .error ⟨⟨"where.or[11]", []⟩, []⟩) ∧
      g.compile = .error e' ∧
      (∃ h, Position.Names (fun steps => g.node? steps) "where" "where.or[11]" h ∧
        h.FailsAs (.operand "lt" .missing)) ∧
      ∃ e'', f.check ⟨"query", []⟩ = .error e'' ∧ e''.position.render = "query.or[11]" := by
  intro flags nothing f g e e'
  have hcheck : f.check ⟨"where", []⟩ = .error e := rfl
  have hcompile : g.compile = .error e' := rfl
  have hrender : e.position.render = "where.or[11]" := rfl
  have hrender' : e'.position.render = "where.or[11]" := rfl
  obtain ⟨-, -, hshape, hfault, hrebase⟩ := paths_name_nodes "where"
  have hnode := hshape f e hcheck
  have hnode' := hfault g e' hcompile
  rw [hrender] at hnode
  rw [hrender'] at hnode'
  obtain ⟨suffix, hsuffix, hother⟩ := hrebase f e hcheck
  obtain ⟨e'', he'', hpath, -⟩ := hother "query"
  refine ⟨hcheck, hrender, hnode, hcompile, hnode', e'', he'', ?_⟩
  have hsuffix' : suffix = ".or[11]" :=
    (String.append_right_inj "where").1 (hsuffix.symm.trans hrender)
  rw [hpath, hsuffix']
  rfl

end Filter

end FeedQuery
