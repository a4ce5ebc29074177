import FeedQuery.Proofs.Filter.Meaning

/-!
Which operands each operator takes, read off the leaf, and why it refuses all others.
-/
namespace FeedQuery

namespace Value

variable {v : Value} {e : OperandError}

/-- Why a value is no text operand. -/
inductive NotText (v : Value) : OperandError → Prop where
  | object {fields : List (String × Json)} (h : v.json = .object fields)
      (hid : ∀ id, fields.lookup "id" ≠ some (.string id)) :
      NotText v (.wrongKind "string or \x7bid\x7d" .object)
  | other (hs : ∀ s, v.json ≠ .string s) (ho : ∀ fields, v.json ≠ .object fields) :
      NotText v (.wrongKind "string" v.json.kind)

/-- Why a value is no numeric operand. -/
inductive NotNumber (v : Value) : OperandError → Prop where
  | other (h : ∀ n, v.json ≠ .number n) : NotNumber v (.wrongKind "number" v.json.kind)

/-- Why a value is no path operand. -/
inductive NotPath (v : Value) : OperandError → Prop where
  | empty (h : v.json = .string "") : NotPath v (.wrongKind "dotted path string" .string)
  | other (h : ∀ s, v.json ≠ .string s) : NotPath v (.wrongKind "dotted path string" v.json.kind)

theorem text?_eq_error_iff : v.text? = .error e ↔ v.NotText e := by
  unfold text?
  constructor
  · intro h
    split at h
    · cases h
    · rename_i fields hv
      split at h
      · cases h
      · rename_i hid
        cases h
        exact .object hv hid
    · rename_i hs ho
      cases h
      exact .other hs ho
  · rintro (⟨hv, hid⟩ | ⟨hs, ho⟩)
    · rw [hv]
      dsimp only
      split
      · rename_i id hfound
        exact absurd hfound (hid id)
      · rfl
    · split
      · rename_i s hv
        exact absurd hv (hs s)
      · rename_i fields hv
        exact absurd hv (ho fields)
      · rfl

theorem number?_eq_error_iff : v.number? = .error e ↔ v.NotNumber e := by
  unfold number?
  constructor
  · intro h
    split at h
    · cases h
    · rename_i hn
      cases h
      exact .other hn
  · rintro ⟨hn⟩
    split
    · rename_i n hv
      exact absurd hv (hn n)
    · rfl

theorem path?_eq_error_iff : v.path? = .error e ↔ v.NotPath e := by
  unfold path?
  constructor
  · intro h
    split at h
    · rename_i s hv
      split at h
      · rename_i hempty
        cases h
        exact .empty (hempty ▸ hv)
      · cases h
    · rename_i hs
      cases h
      exact .other hs
  · rintro (hv | hs)
    · simp [hv]
    · split
      · rename_i s hv
        exact absurd hv (hs s)
      · rfl

theorem path?_eq_ok_iff {path : List String} :
    v.path? = .ok path ↔ v.IsPath path ∧ v.json ≠ .string "" := by
  constructor
  · intro h
    refine ⟨(isPath_iff_of_path? h).2 rfl, ?_⟩
    intro hv
    rw [path?_eq_error_iff.2 (.empty hv)] at h
    cases h
  · rintro ⟨hpath, hne⟩
    cases h : v.path? with
    | ok path' => rw [(isPath_iff_of_path? h).1 hpath]
    | error e =>
      rcases path?_eq_error_iff.1 h with hv | hs
      · exact absurd hv hne
      · exact absurd hpath.2.2 (hs _)

end Value

namespace RawFilter

variable {value? : Option Value} {values? : Option (List Value)} {v : Value} {e : OperandError}

/-- A `value` that is left out or null. -/
def NoValue (value? : Option Value) : Prop := value? = none ∨ value? = some .null

/-- Why an operator of one operand refuses a leaf, given what is wrong with a value for it. -/
inductive RefusesOne (Wrong : Value → OperandError → Prop) (value? : Option Value) :
    Option (List Value) → OperandError → Prop where
  | absent (h : NoValue value?) : RefusesOne Wrong value? none .missing
  | empty (h : NoValue value?) : RefusesOne Wrong value? (some []) .missing
  | null (h : NoValue value?) : RefusesOne Wrong value? (some [.null]) .missing
  | several {v w : Value} {vs : List Value} (h : NoValue value?) :
      RefusesOne Wrong value? (some (v :: w :: vs)) (.wrongCount 1 (vs.length + 2))
  | wrong {v : Value} {values? : Option (List Value)} {e : OperandError}
      (h : IsOperand value? values? v) (hv : v ≠ .null) (he : Wrong v e) :
      RefusesOne Wrong value? values? e

/-- Why an operator of a list of operands refuses a leaf. -/
inductive RefusesList (length : Nat) : Option (List Value) → OperandError → Prop where
  | absent : RefusesList length none .missing
  | empty : RefusesList length (some []) .emptyList
  | otherLength {vs : List Value} (hne : vs ≠ []) (h : vs.length ≠ length) :
      RefusesList length (some vs) (.wrongCount length vs.length)

theorem single?_of_noValue (h : NoValue value?) :
    Operands.single? value? values? = Operands.single? none values? := by
  rcases h with rfl | rfl <;> rfl

theorem single?_of_value (hv : v ≠ .null) : Operands.single? (some v) values? = .ok v := by
  have hnull : ¬ v.json.isNull = true := by
    rw [Json.isNull_iff, Value.json_eq_null_iff]
    exact hv
  have hsome : (some v).filter (!·.json.isNull) = some v := by simp [Option.filter, hnull]
  simp only [Operands.single?, hsome]

theorem single?_of_isOperand (h : IsOperand value? values? v) (hv : v ≠ .null) :
    Operands.single? value? values? = .ok v := by
  rcases h with ⟨rfl, -⟩ | ⟨hnone, rfl⟩
  · exact single?_of_value hv
  · rw [single?_of_noValue hnone]
    have hnull : ¬ v.json.isNull = true := by
      rw [Json.isNull_iff, Value.json_eq_null_iff]
      exact hv
    simp [Operands.single?, hnull]

/-- One operand is found, or it is said why there is none. -/
theorem single?_cases (value? : Option Value) (values? : Option (List Value)) :
    (∃ v, Operands.single? value? values? = .ok v ∧ IsOperand value? values? v ∧ v ≠ .null) ∨
      ∃ e, Operands.single? value? values? = .error e ∧
        ∀ Wrong, RefusesOne Wrong value? values? e := by
  by_cases hvalue : NoValue value?
  · rw [single?_of_noValue hvalue]
    match values? with
    | none => exact .inr ⟨_, rfl, fun _ => .absent hvalue⟩
    | some [] => exact .inr ⟨_, rfl, fun _ => .empty hvalue⟩
    | some (_ :: _ :: _) => exact .inr ⟨_, rfl, fun _ => .several hvalue⟩
    | some [v] =>
      by_cases hv : v = .null
      · subst hv
        exact .inr ⟨_, rfl, fun _ => .null hvalue⟩
      · have hoperand : IsOperand none (some [v]) v := .inr ⟨.inl rfl, rfl⟩
        exact .inl ⟨v, single?_of_isOperand hoperand hv, .inr ⟨hvalue, rfl⟩, hv⟩
  · rcases value? with _ | v
    · exact absurd (.inl rfl) hvalue
    · have hv : v ≠ .null := fun h => hvalue (.inr (congrArg some h))
      exact .inl ⟨v, single?_of_value hv, .inl ⟨rfl, mt Value.json_eq_null_iff.1 hv⟩, hv⟩

/-- An operator that reads its one operand fails as is said of the leaf. -/
theorem single?_bind_eq_error_iff {α : Type} {Wrong : Value → OperandError → Prop}
    {read : Value → Except OperandError α} (hread : ∀ v e, read v = .error e ↔ Wrong v e) :
    Operands.single? value? values? >>= read = .error e ↔ RefusesOne Wrong value? values? e := by
  constructor
  · intro h
    rcases single?_cases value? values? with ⟨v, hv, hoperand, hnull⟩ | ⟨e', he', hrefuses⟩
    · rw [hv] at h
      exact .wrong hoperand hnull ((hread v e).1 h)
    · rw [he'] at h
      cases h
      exact hrefuses Wrong
  · rintro (h | h | h | h | ⟨hoperand, hnull, he⟩)
    · rw [single?_of_noValue h]
      rfl
    · rw [single?_of_noValue h]
      rfl
    · rw [single?_of_noValue h]
      rfl
    · rw [single?_of_noValue h]
      rfl
    · rw [single?_of_isOperand hoperand hnull]
      exact (hread _ e).2 he

/-- It succeeds on the operand of the leaf, if it reads that. -/
theorem single?_bind_map_isOk_iff {α β : Type} {Reads : Value → α → Prop}
    {read : Value → Except OperandError α} (f : α → β)
    (hread : ∀ v a, read v = .ok a ↔ Reads v a) (hnull : ∀ a, ¬ Reads .null a) :
    (∃ b, (Operands.single? value? values? >>= fun v => (read v).map f) = .ok b) ↔
      OnOperand Reads value? values? fun _ => True := by
  constructor
  · rintro ⟨b, h⟩
    obtain ⟨v, hv, h⟩ := bind_eq_ok_iff.1 h
    obtain ⟨a, ha, -⟩ := map_eq_ok_iff.1 h
    exact ⟨v, a, isOperand_of_single? hv, (hread v a).1 ha, trivial⟩
  · rintro ⟨v, a, hoperand, ha, -⟩
    have hv : v ≠ .null := by
      rintro rfl
      exact hnull a ha
    have hmap : (read v).map f = .ok (f a) := map_eq_ok_iff.2 ⟨a, (hread v a).2 ha, rfl⟩
    exact ⟨f a, bind_eq_ok_iff.2 ⟨v, single?_of_isOperand hoperand hv, hmap⟩⟩

end RawFilter

namespace Operator

open RawFilter

variable {value? : Option Value} {values? : Option (List Value)} {e : OperandError}

/-- The operands that an operator takes. -/
def Accepts (value? : Option Value) (values? : Option (List Value)) : Operator → Prop
  | .text _ => OnText value? values? fun _ => True
  | .flag _ => True
  | .slowEqual => ∃ operand v path,
    values? = some [operand, v] ∧ operand.IsPath path ∧ operand.json ≠ .string ""
  | .compare _ => OnNumber value? values? fun _ => True

/-- Why an operator refuses the operands of a leaf. -/
def Refuses (value? : Option Value) (values? : Option (List Value)) (e : OperandError) :
    Operator → Prop
  | .text _ => RefusesOne Value.NotText value? values? e
  | .flag _ => False
  | .slowEqual => RefusesList 2 values? e ∨
    ∃ operand v, values? = some [operand, v] ∧ operand.NotPath e
  | .compare _ => RefusesOne Value.NotNumber value? values? e

theorem construct_text_eq (t : TextOperator) (value? : Option Value)
    (values? : Option (List Value)) : (text t).construct value? values? =
      Operands.single? value? values? >>= fun v => v.text?.map (.text t) := by
  simp only [construct, OperatorEntry.construct, entry, arity, Operands.select]
  cases Operands.single? value? values? <;> rfl

theorem construct_compare_eq (c : Comparison) (value? : Option Value)
    (values? : Option (List Value)) : (compare c).construct value? values? =
      Operands.single? value? values? >>= fun v =>
        v.number?.map fun x => .compare timestampField c (.finite x) := by
  simp only [construct, OperatorEntry.construct, entry, arity, Operands.select]
  cases Operands.single? value? values? <;> rfl

theorem construct_slowEqual_of_refuses (h : RefusesList 2 values? e) :
    slowEqual.construct value? values? = .error e := by
  cases h with
  | absent => rfl
  | empty => rfl
  | otherLength hne h =>
    rename_i vs
    rcases vs with _ | ⟨v, vs⟩
    · exact absurd rfl hne
    · simp only [construct, OperatorEntry.construct, entry, arity, Operands.select,
        Operands.list?, h, ↓reduceIte]
      rfl

theorem construct_slowEqual_eq (operand v : Value) : slowEqual.construct value?
    (some [operand, v]) = operand.path?.map fun path => .slowEqual path v := rfl

/-- A list of two operands is there, or it is said why not. -/
theorem two_or_refuses (values? : Option (List Value)) :
    (∃ operand v, values? = some [operand, v]) ∨ ∃ e, RefusesList 2 values? e :=
  match values? with
  | none => .inr ⟨_, .absent⟩
  | some [] => .inr ⟨_, .empty⟩
  | some [operand, v] => .inl ⟨operand, v, rfl⟩
  | some [_] => .inr ⟨_, .otherLength (by simp) (by simp)⟩
  | some (_ :: _ :: _ :: _) => .inr ⟨_, .otherLength (by simp) (by simp)⟩

theorem construct_eq_error_iff {op : Operator} :
    op.construct value? values? = .error e ↔ op.Refuses value? values? e := by
  cases op with
  | text t =>
    rw [construct_text_eq]
    apply single?_bind_eq_error_iff
    intro v e
    rw [map_eq_error_iff, Value.text?_eq_error_iff]
  | flag f => exact ⟨nofun, nofun⟩
  | slowEqual =>
    constructor
    · intro h
      rcases two_or_refuses values? with ⟨operand, v, rfl⟩ | ⟨e', hrefuses⟩
      · rw [construct_slowEqual_eq, map_eq_error_iff, Value.path?_eq_error_iff] at h
        exact .inr ⟨operand, v, rfl, h⟩
      · rw [construct_slowEqual_of_refuses hrefuses] at h
        cases h
        exact .inl hrefuses
    · rintro (hrefuses | ⟨operand, v, rfl, hpath⟩)
      · exact construct_slowEqual_of_refuses hrefuses
      · rw [construct_slowEqual_eq, map_eq_error_iff, Value.path?_eq_error_iff]
        exact hpath
  | compare c =>
    rw [construct_compare_eq]
    apply single?_bind_eq_error_iff
    intro v e
    rw [map_eq_error_iff, Value.number?_eq_error_iff]

theorem construct_isOk_iff {op : Operator} :
    (∃ c, op.construct value? values? = .ok c) ↔ op.Accepts value? values? := by
  cases op with
  | text t =>
    rw [construct_text_eq]
    exact single?_bind_map_isOk_iff _ (fun v s => Value.text?_eq_ok_iff)
      (by simp [Value.IsText, Json.HasField])
  | flag f => exact ⟨fun _ => trivial, fun _ => ⟨_, rfl⟩⟩
  | slowEqual =>
    constructor
    · rintro ⟨c, h⟩
      obtain ⟨operand, v, path, rfl, hpath, -⟩ := construct_slowEqual h
      exact ⟨operand, v, path, rfl, Value.path?_eq_ok_iff.1 hpath⟩
    · rintro ⟨operand, v, path, rfl, hpath⟩
      rw [construct_slowEqual_eq, Value.path?_eq_ok_iff.2 hpath]
      exact ⟨_, rfl⟩
  | compare c =>
    rw [construct_compare_eq]
    exact single?_bind_map_isOk_iff _ (fun v x => Value.number?_eq_ok_iff)
      (by simp [Value.IsNumber])

end Operator

end FeedQuery
