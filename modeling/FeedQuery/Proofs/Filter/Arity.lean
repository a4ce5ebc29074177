import FeedQuery.Proofs.Filter.Meaning

/-!
Entries of the vocabulary whose arity is altered. The arity decides which operands are picked, and
the operator which shape of operands it takes, so the two have to agree before a condition comes
out.
-/
namespace FeedQuery

namespace Operands

/-- The arity that operands have the shape of. -/
def arity : Operands → Arity
  | .none => .none
  | .single _ => .single
  | .list vs => .list vs.length

variable {value? : Option Value} {values? : Option (List Value)}

theorem length_of_list? {length : Nat} {vs : List Value} (h : list? length values? = .ok vs) :
    vs.length = length := by
  unfold list? at h
  split at h
  · cases h
  · cases h
  · split at h
    · rename_i hlength
      cases h
      exact hlength
    · cases h

/-- Operands are picked in the shape that is asked for. -/
theorem arity_of_select {a : Arity} {operands : Operands}
    (h : select a value? values? = .ok operands) : operands.arity = a := by
  cases a with
  | none =>
    cases h
    rfl
  | single =>
    obtain ⟨v, -, rfl⟩ := map_eq_ok_iff.1 h
    rfl
  | list length =>
    obtain ⟨vs, hvs, rfl⟩ := map_eq_ok_iff.1 h
    exact congrArg Arity.list (length_of_list? hvs)

end Operands

namespace Operator

variable {op : Operator} {operands : Operands}

/-- To an operator that takes operands, those of another shape are missing. -/
theorem build_of_arity_ne (hop : op.arity ≠ .none) (h : operands.arity ≠ op.arity) :
    op.build operands = .error .missing := by
  cases op with
  | text t =>
    cases operands with
    | single v => exact absurd rfl h
    | _ => rfl
  | flag f => exact absurd rfl hop
  | slowEqual =>
    match operands with
    | .none | .single _ => rfl
    | .list [_, _] => exact absurd rfl h
    | .list [] | .list [_] | .list (_ :: _ :: _ :: _) => rfl
  | compare c =>
    cases operands with
    | single v => exact absurd rfl h
    | _ => rfl

/-- An operator that takes none makes the same condition of any. -/
theorem build_congr_none (hop : op.arity = .none) (operands operands' : Operands) :
    op.build operands = op.build operands' := by
  cases op with
  | flag f => rfl
  | _ => cases hop

end Operator

namespace OperatorEntry

variable {e : OperatorEntry} {value? : Option Value} {values? : Option (List Value)}
  {c : Condition}

theorem arity_of_mem_all (h : e ∈ all) : e.arity = e.operator.arity := by
  obtain ⟨op, -, rfl⟩ := List.mem_map.1 h
  rfl

theorem construct_eq_ok_iff : e.construct value? values? = .ok c ↔
    ∃ operands, Operands.select e.arity value? values? = .ok operands ∧
      e.operator.build operands = .ok c := bind_eq_ok_iff

/-- With an arity that the operator does not take nothing comes out: if operands are picked at all,
they are missing to the operator. -/
theorem construct_of_arity_ne (hop : e.operator.arity ≠ .none)
    (h : e.arity ≠ e.operator.arity) : e.construct value? values? =
      Operands.select e.arity value? values? >>= fun _ => .error .missing := by
  rw [construct]
  cases hselect : Operands.select e.arity value? values? with
  | error err => rfl
  | ok operands =>
    have hshape : operands.arity ≠ e.operator.arity := by
      rw [Operands.arity_of_select hselect]
      exact h
    exact Operator.build_of_arity_ne hop hshape

theorem arity_eq_of_construct (hop : e.operator.arity ≠ .none)
    (h : e.construct value? values? = .ok c) : e.arity = e.operator.arity := by
  by_contra hne
  rw [construct_of_arity_ne hop hne] at h
  obtain ⟨_, -, h⟩ := bind_eq_ok_iff.1 h
  cases h

/-- Whatever arity an entry of the vocabulary is given, a condition that it then makes of the
operands of a leaf is the one that it made before, of operands in the shape that it was listed with.
So another arity can only turn a condition into an error. To an operator that takes operands it
always does so: any other arity is refused, for the fault found in picking the operands or else
because none of the right shape are there. -/
theorem construct_of_altered_arity (e : OperatorEntry) (he : e ∈ all) (arity : Arity)
    (value? : Option Value) (values? : Option (List Value)) :
    (∀ c, { e with arity := arity }.construct value? values? = .ok c →
      e.construct value? values? = .ok c ∧ ∃ operands, operands.arity = e.arity ∧
        Operands.select e.arity value? values? = .ok operands ∧
        e.operator.build operands = .ok c) ∧
    (e.arity ≠ .none →
      (∀ c, { e with arity := arity }.construct value? values? = .ok c → arity = e.arity) ∧
      (arity ≠ e.arity → { e with arity := arity }.construct value? values? =
        Operands.select arity value? values? >>= fun _ => .error .missing)) := by
  have hlisted : e.arity = e.operator.arity := arity_of_mem_all he
  refine ⟨fun c hc => ?_, fun hop => ⟨fun c hc => ?_, fun hne => ?_⟩⟩
  · have hsame : e.construct value? values? = .ok c := by
      by_cases hnone : e.operator.arity = .none
      · obtain ⟨operands, -, hbuild⟩ := construct_eq_ok_iff.1 hc
        refine construct_eq_ok_iff.2 ⟨.none, ?_, ?_⟩
        · rw [hlisted, hnone]
          rfl
        · rw [Operator.build_congr_none hnone .none operands]
          exact hbuild
      · have harity : arity = e.operator.arity :=
          arity_eq_of_construct (e := { e with arity := arity }) hnone hc
        rw [harity, ← hlisted] at hc
        exact hc
    obtain ⟨operands, hselect, hbuild⟩ := construct_eq_ok_iff.1 hsame
    exact ⟨hsame, operands, Operands.arity_of_select hselect, hselect, hbuild⟩
  · rw [hlisted] at hop ⊢
    exact arity_eq_of_construct (e := { e with arity := arity }) hop hc
  · rw [hlisted] at hop hne
    exact construct_of_arity_ne (e := { e with arity := arity }) hop hne

/-- A flag does not mind two operands, which an altered arity picks for it. An operator on a text
refuses the same two, and also a list of the one operand that it takes. -/
theorem construct_of_altered_arity_listed :
    let operand := Value.string "@a"
    let isRoot := Operator.entry (.flag .isRoot)
    let author := Operator.entry (.text .author)
    isRoot ∈ all ∧ author ∈ all ∧ author.arity ≠ .none ∧ Arity.list 1 ≠ author.arity ∧
      { isRoot with arity := .list 2 }.construct none (some [operand, operand]) =
        .ok (.flag .isRoot) ∧
      isRoot.construct none (some [operand, operand]) = .ok (.flag .isRoot) ∧
      author.construct none (some [operand]) = .ok (.text .author "@a") ∧
      { author with arity := .list 1 }.construct none (some [operand]) = .error .missing := by
  intro operand isRoot author
  have hroot : isRoot ∈ all := List.mem_map_of_mem (Operator.mem_all _)
  have hauthor : author ∈ all := List.mem_map_of_mem (Operator.mem_all _)
  have hflag : { isRoot with arity := .list 2 }.construct none (some [operand, operand]) =
      .ok (.flag .isRoot) := rfl
  obtain ⟨hkept, -⟩ :=
    construct_of_altered_arity isRoot hroot (.list 2) none (some [operand, operand])
  obtain ⟨-, hrefused⟩ := construct_of_altered_arity author hauthor (.list 1) none (some [operand])
  exact ⟨hroot, hauthor, nofun, nofun, hflag, (hkept _ hflag).1, rfl,
    (hrefused nofun).2 nofun⟩

end OperatorEntry

end FeedQuery
