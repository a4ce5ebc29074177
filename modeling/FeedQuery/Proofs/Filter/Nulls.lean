import FeedQuery.Proofs.Filter.Congruence

/-!
Values of filter nodes that are there but null. They count for nothing: without them a filter
compiles to the same.
-/
namespace FeedQuery

/-- A value, if it is there and not null. -/
def Value.present? (value? : Option Value) : Option Value := value?.filter (!·.json.isNull)

theorem Value.present?_present? (value? : Option Value) :
    present? (present? value?) = present? value? := by
  rw [present?, present?, Option.filter_filter]
  simp

theorem Operands.select_present? (arity : Arity) (value? : Option Value)
    (values? : Option (List Value)) :
    select arity (Value.present? value?) values? = select arity value? values? := by
  cases arity with
  | none => rfl
  | single =>
    have hvalue : (Value.present? value?).filter (!·.json.isNull) =
        value?.filter (!·.json.isNull) := Value.present?_present? value?
    simp only [select, single?, hvalue]
  | list length => rfl

theorem Operator.construct_present? (op : Operator) (value? : Option Value)
    (values? : Option (List Value)) :
    op.construct (Value.present? value?) values? = op.construct value? values? := by
  rw [construct, OperatorEntry.construct, Operands.select_present?]
  rfl

namespace RawFilter

mutual

/-- The filter with every value of a node that is null left out, and nothing else changed. -/
def withoutNulls : RawFilter → RawFilter
  | ⟨and?, or?, operator?, value?, values?⟩ =>
    ⟨listWithoutNulls? and?, listWithoutNulls? or?, operator?, Value.present? value?, values?⟩

def listWithoutNulls? : Option (List RawFilter) → Option (List RawFilter)
  | none => none
  | some fs => some (listWithoutNulls fs)

def listWithoutNulls : List RawFilter → List RawFilter
  | [] => []
  | f :: fs => f.withoutNulls :: listWithoutNulls fs

end

mutual

theorem alike_withoutNulls : (f : RawFilter) → Alike Eq f f.withoutNulls
  | ⟨and?, or?, operator?, value?, values?⟩ => by
    rw [withoutNulls]
    exact .node Predicate.congruence_eq (alike_listWithoutNulls? and?) (alike_listWithoutNulls? or?)
      fun op => (op.construct_present? value? values?).symm

theorem alike_listWithoutNulls? : (fs? : Option (List RawFilter)) →
    Option.Rel (List.Forall₂ (Alike Eq)) fs? (listWithoutNulls? fs?)
  | none => .none
  | some fs => .some (alike_listWithoutNulls fs)

theorem alike_listWithoutNulls : (fs : List RawFilter) →
    List.Forall₂ (Alike Eq) fs (listWithoutNulls fs)
  | [] => .nil
  | f :: fs => .cons (alike_withoutNulls f) (alike_listWithoutNulls fs)

end

/-- Without its nulls a filter compiles to the same predicate, or fails with the same error. -/
theorem compile_withoutNulls (f : RawFilter) : f.withoutNulls.compile = f.compile :=
  (alike_withoutNulls f).compile.eq.symm

end RawFilter

end FeedQuery
