import FeedQuery.Proofs.Filter.Exchange
import FeedQuery.Proofs.Filter.Nulls
import FeedQuery.Proofs.Filter.Refusal
import Mathlib.Logic.Relation

/-!
Where the operands of a leaf may stand, and which of them count. Leaves whose operands count for the
same may be exchanged for each other anywhere in a filter, which then compiles to the same predicate
or fails with the same error.
-/
namespace FeedQuery

theorem Value.IsText.json_ne_null {v : Value} {s : String} (h : v.IsText s) : v.json ≠ .null := by
  intro hnull
  simp [IsText, Json.HasField, hnull] at h

namespace Operator

variable {op : Operator} {value? value?' : Option Value} {values? values?' : Option (List Value)}

/-- An operator of one operand sees of a leaf no more than the one that is picked. -/
theorem construct_congr_single (hop : op.arity = .single)
    (h : Operands.single? value? values? = Operands.single? value?' values?') :
    op.construct value? values? = op.construct value?' values?' := by
  simp only [construct, OperatorEntry.construct, entry, hop, Operands.select, h]

theorem construct_congr_list {length : Nat} (hop : op.arity = .list length)
    (value? value?' : Option Value) (values? : Option (List Value)) :
    op.construct value? values? = op.construct value?' values? := by
  simp only [construct, OperatorEntry.construct, entry, hop, Operands.select]

theorem construct_congr_none (hop : op.arity = .none) (value? value?' : Option Value)
    (values? values?' : Option (List Value)) :
    op.construct value? values? = op.construct value?' values?' := by
  simp only [construct, OperatorEntry.construct, entry, hop, Operands.select]

/-- An operator on a text takes it from a string and from an object alike. -/
theorem construct_of_isText {t : TextOperator} {s : String} {v : Value}
    (hoperand : RawFilter.IsOperand value? values? v) (hs : v.IsText s) :
    (text t).construct value? values? = .ok (.text t s) := by
  have hv : v ≠ .null := mt Value.json_eq_null_iff.2 hs.json_ne_null
  rw [construct_text_eq, RawFilter.single?_of_isOperand hoperand hv]
  exact map_eq_ok_iff.2 ⟨s, Value.text?_eq_ok_iff.2 hs, rfl⟩

end Operator

namespace RawFilter

/-- A leaf with an operator of the vocabulary. -/
def leaf (op : Operator) (value? : Option Value) (values? : Option (List Value)) : RawFilter :=
  ⟨none, none, some op.name, value?, values?⟩

/-- Two leaves whose operands count for the same. -/
inductive SameOperands : RawFilter → RawFilter → Prop where
  /-- Beside a value nothing else counts to an operator of one operand. -/
  | valuesIgnored {op : Operator} (hop : op.arity = .single) {v : Value} (hv : v ≠ .null)
      (values? values?' : Option (List Value)) :
      SameOperands (leaf op (some v) values?) (leaf op (some v) values?')
  /-- The operand may stand alone in the list. -/
  | valueListed {op : Operator} (hop : op.arity = .single) {v : Value} (hv : v ≠ .null)
      (values? : Option (List Value)) :
      SameOperands (leaf op (some v) values?) (leaf op none (some [v]))
  /-- To any name of an operator null is no value. -/
  | nullDropped (operator : String) (values? : Option (List Value)) :
      SameOperands ⟨none, none, some operator, some .null, values?⟩
        ⟨none, none, some operator, none, values?⟩
  /-- A text may come as an object that carries it as its `id`. -/
  | textAsObject (t : TextOperator) {s : String} {v : Value}
      (hid : v.json.HasField "id" (.string s)) (values? : Option (List Value)) :
      SameOperands (leaf (.text t) (some (.string s)) values?) (leaf (.text t) (some v) values?)
  | listedTextAsObject (t : TextOperator) {s : String} {v : Value}
      (hid : v.json.HasField "id" (.string s)) {value? : Option Value} (hvalue : NoValue value?) :
      SameOperands (leaf (.text t) value? (some [.string s])) (leaf (.text t) value? (some [v]))
  /-- To an operator of a list only the list counts. -/
  | valueIgnored {op : Operator} {length : Nat} (hop : op.arity = .list length)
      (value? value?' : Option Value) (values? : Option (List Value)) :
      SameOperands (leaf op value? values?) (leaf op value?' values?)
  /-- To an operator without operands nothing counts. -/
  | allIgnored {op : Operator} (hop : op.arity = .none) (value? value?' : Option Value)
      (values? values?' : Option (List Value)) :
      SameOperands (leaf op value? values?) (leaf op value?' values?')

variable {op : Operator} {value? value?' : Option Value} {values? values?' : Option (List Value)}
  {f g : RawFilter}

theorem alike_leaf (h : op.construct value? values? = op.construct value?' values?') :
    Alike Eq (leaf op value? values?) (leaf op value?' values?') := by
  intro p
  refine .ok fun q => ?_
  have hcompile : Leaf.compile ⟨op.name, value?, values?⟩ q =
      Leaf.compile ⟨op.name, value?', values?'⟩ q := by
    simp only [Leaf.compile, Operator.resolve, Operator.ofName?_name]
    show Except.mapError _ _ = Except.mapError _ _
    rw [h]
  rw [Filter.compileAt, Filter.compileAt, hcompile]
  exact .refl (fun _ => rfl) _

theorem SameOperands.alike (h : SameOperands f g) : Alike Eq f g := by
  cases h with
  | valuesIgnored hop hv values? values?' =>
    apply alike_leaf
    apply Operator.construct_congr_single hop
    rw [single?_of_value hv, single?_of_value hv]
  | @valueListed op hop v hv values? =>
    have hlisted : IsOperand none (some [v]) v := .inr ⟨.inl rfl, rfl⟩
    apply alike_leaf
    apply Operator.construct_congr_single hop
    rw [single?_of_value hv, single?_of_isOperand hlisted hv]
  | nullDropped operator values? =>
    exact .node Predicate.congruence_eq .none .none fun op =>
      (op.construct_present? (some .null) values?).symm
  | @textAsObject t s v hid values? =>
    have hoperand {w : Value} (hw : w.IsText s) : IsOperand (some w) values? w :=
      .inl ⟨rfl, hw.json_ne_null⟩
    have hstring : Value.IsText (.string s) s := .inl rfl
    have hobject : v.IsText s := .inr hid
    apply alike_leaf
    rw [Operator.construct_of_isText (hoperand hstring) hstring,
      Operator.construct_of_isText (hoperand hobject) hobject]
  | @listedTextAsObject t s v hid value? hvalue =>
    apply alike_leaf
    rw [Operator.construct_of_isText (.inr ⟨hvalue, rfl⟩) (.inl rfl),
      Operator.construct_of_isText (.inr ⟨hvalue, rfl⟩) (.inr hid)]
  | valueIgnored hop value? value?' values? =>
    exact alike_leaf (Operator.construct_congr_list hop value? value?' values?)
  | allIgnored hop value? value?' values? values?' =>
    exact alike_leaf (Operator.construct_congr_none hop value? value?' values? values?')

/-- Leaves whose operands count for the same may be exchanged for each other, as many as one likes,
each at any depth of a filter: it compiles to the same predicate or fails with the same error at the
same position. -/
theorem compile_of_same_operands (h : Relation.EqvGen (Exchanged SameOperands) f g) :
    f.compile = g.compile := by
  induction h with
  | rel f g h =>
    exact (h.alike Predicate.congruence_eq fun _ _ => SameOperands.alike).compile.eq
  | refl f => rfl
  | symm f g h ih => exact ih.symm
  | trans f g k hfg hgk ihfg ihgk => exact ihfg.trans ihgk

/-- The author is listed and then put into an object, below a list of alternatives. The number that
stands for a key is refused as before, at the same place. -/
theorem compile_of_same_operands_author :
    let id : Value := .ofJson (.object [("id", .string "@a"), ("name", .string "a")])
    let author := leaf (.text .author)
    let filter (f : RawFilter) : RawFilter := ⟨some [⟨none, some [f], none, none, none⟩,
      leaf (.text .key) (some (.ofJson (.number (.ofNat 42)))) none], none, none, none, none⟩
    let f := filter (author (some (.string "@a")) (some [.null, .null]))
    let g := filter (author none (some [id]))
    Relation.EqvGen (Exchanged SameOperands) f g ∧ f.compile = g.compile ∧
      g.compile = .error ⟨⟨"where", [(.and, 1)]⟩, .operand "key" (.wrongKind "string" .number)⟩ := by
  intro id author filter f g
  have hin {f g : RawFilter} (h : SameOperands f g) :
      Relation.EqvGen (Exchanged SameOperands) (filter f) (filter g) :=
    .rel _ _ (.inside (.inside (.here h) default .or [] []) default .and [] _)
  have hne : Value.string "@a" ≠ .null := mt Value.json_eq_null_iff.2 nofun
  have hlisted : SameOperands (author (some (.string "@a")) (some [.null, .null]))
      (author none (some [.string "@a"])) := .valueListed rfl hne _
  have hobject : SameOperands (author none (some [.string "@a"])) (author none (some [id])) :=
    .listedTextAsObject .author ⟨_, rfl, rfl⟩ (.inl rfl)
  have h : Relation.EqvGen (Exchanged SameOperands) f g := (hin hlisted).trans _ _ _ (hin hobject)
  exact ⟨h, compile_of_same_operands h, rfl⟩

end RawFilter

end FeedQuery
