import FeedQuery.Proofs.Filter.Laws
import FeedQuery.Proofs.Filter.Operands
import FeedQuery.Sample

/-!
Filters by time. A bound shares a log out between what is before it and what is not, and windows
that follow each other make up one window.
-/
namespace FeedQuery

namespace RawFilter

/-- A leaf that compares the claimed time with a number, wherever in the leaf the number stands. -/
def Bounds (f : RawFilter) (c : Comparison) (n : Number) : Prop :=
  ∃ value? values?, f = leaf (.compare c) value? values? ∧
    IsOperand value? values? ⟨.number n, trivial⟩

variable {f : RawFilter} {c : Comparison} {n : Number} {m : Message}

/-- A bound always compiles, and compares with the number that is nearest to the operand. -/
theorem Bounds.compile (h : f.Bounds c n) : f.compile =
    .ok (.condition (.compare Operator.timestampField c (.finite n.toBinary64))) := by
  obtain ⟨value?, values?, rfl, hoperand⟩ := h
  have hne : (⟨.number n, trivial⟩ : Value) ≠ .null := mt Value.json_eq_null_iff.2 nofun
  have hconstruct : (Operator.compare c).construct value? values? =
      .ok (.compare Operator.timestampField c (.finite n.toBinary64)) := by
    rw [Operator.construct_compare_eq, single?_of_isOperand hoperand hne]
    rfl
  show Except.map Predicate.condition (Leaf.compile ⟨(Operator.compare c).name, _, _⟩ .root) = _
  rw [Leaf.compile, Operator.resolve, Operator.ofName?_name]
  show Except.map Predicate.condition (Except.mapError _ _) = _
  rw [hconstruct]
  rfl

theorem Bounds.admits_iff (h : f.Bounds c n) :
    f.Admits m ↔ c.holds (.finite m.entry.timestamp) (.finite n.toBinary64) = true := by
  rw [← holds_iff_admits h.compile]
  rfl

/-- What is claimed to be from one time on and before another one. -/
def window (bound : Comparison → Number → RawFilter) (a b : Number) : RawFilter :=
  combine .and [bound .gte a, bound .lt b]

variable {bound : Comparison → Number → RawFilter} {a b : Number}

theorem compiles_window (hbound : ∀ c n, (bound c n).Bounds c n) (a b : Number) :
    (window bound a b).Compiles :=
  compiles_pair_iff.2 ⟨⟨_, (hbound .gte a).compile⟩, ⟨_, (hbound .lt b).compile⟩⟩

theorem admits_window_iff (hbound : ∀ c n, (bound c n).Bounds c n) :
    (window bound a b).Admits m ↔ a.toBinary64.units ≤ m.time ∧ m.time < b.toBinary64.units := by
  rw [window, admits_and_iff]
  simp only [List.forall_mem_cons, List.not_mem_nil, false_implies, implies_true, and_true,
    (hbound .gte a).admits_iff, (hbound .lt b).admits_iff, Comparison.holds, Extended.le_finite,
    Extended.lt_finite, Binary64.le_iff, Binary64.lt_iff, Message.time]

end RawFilter

namespace Log

open RawFilter

/-- Two predicates that share a log out: every message satisfies exactly one of them, and what a
query finds with the one and with the other is the log, each message as often as it is there. -/
structure SharedOut (l : Log) (p q : Predicate) : Prop where
  exactlyOne : ∀ m ∈ l.messages, p.holds m = !q.holds m
  perm : (l.query p ++ l.query q).Perm l.messages

variable {l : Log} {p q : Predicate}

theorem SharedOut.of_holds (h : ∀ m, p.holds m = !q.holds m) : l.SharedOut p q where
  exactlyOne m _ := h m
  perm := by
    have hq : l.query q = l.messages.filter fun m => !p.holds m := by
      rw [query]
      exact List.filter_congr fun m _ => by rw [h m, Bool.not_not]
    rw [hq]
    exact List.filter_append_perm (fun m => p.holds m) l.messages

theorem query_eq_of_admits {f g : RawFilter} (hf : f.compile = .ok p) (hg : g.compile = .ok q)
    (h : ∀ m, f.Admits m ↔ g.Admits m) : l.query p = l.query q := by
  refine List.filter_congr fun m _ => ?_
  rw [Bool.eq_iff_iff, holds_iff_admits hf, holds_iff_admits hg, h m]

theorem disjoint_query {f g : RawFilter} (hf : f.compile = .ok p) (hg : g.compile = .ok q)
    (h : ∀ m, ¬ (f.Admits m ∧ g.Admits m)) : (l.query p).Disjoint (l.query q) := by
  intro m hp hq
  have hpm : p.holds m = true := (List.mem_filter.1 hp).2
  have hqm : q.holds m = true := (List.mem_filter.1 hq).2
  exact h m ⟨(holds_iff_admits hf).1 hpm, (holds_iff_admits hg).1 hqm⟩

/-- Filters by time compile whatever numbers they are given and wherever in a leaf a number stands.
In any log, and so in any that a text is read as, every message is either before a time or from it
on, and either up to a time or after it. If three times are in order as binary64 numbers, no message
is both in the window between the first two and in the one between the last two, and either of these
is as much as the window from the first to the last: a query finds the same messages, in the same
order. -/
theorem time_filters_share_out (l : Log) (bound : Comparison → Number → RawFilter)
    (hbound : ∀ c n, (bound c n).Bounds c n) {a b c : Number}
    (hab : a.toBinary64.le b.toBinary64 = true) (hbc : b.toBinary64.le c.toBinary64 = true) :
    (∃ before since upTo after,
      (bound .lt b).compile = .ok before ∧ (bound .gte b).compile = .ok since ∧
      (bound .lte b).compile = .ok upTo ∧ (bound .gt b).compile = .ok after ∧
      l.SharedOut before since ∧ l.SharedOut upTo after) ∧
    ∃ early late either whole,
      (window bound a b).compile = .ok early ∧ (window bound b c).compile = .ok late ∧
      (combine .or [window bound a b, window bound b c]).compile = .ok either ∧
      (window bound a c).compile = .ok whole ∧
      (l.query early).Disjoint (l.query late) ∧ l.query either = l.query whole := by
  constructor
  · refine ⟨_, _, _, _, (hbound .lt b).compile, (hbound .gte b).compile, (hbound .lte b).compile,
      (hbound .gt b).compile, .of_holds fun m => ?_, .of_holds fun m => ?_⟩
    · show m.entry.timestamp.lt b.toBinary64 = !b.toBinary64.le m.entry.timestamp
      rw [Bool.eq_iff_iff, Bool.not_eq_true', ← Bool.not_eq_true, Binary64.lt_iff, Binary64.le_iff]
      exact Int.not_le.symm
    · show m.entry.timestamp.le b.toBinary64 = !b.toBinary64.lt m.entry.timestamp
      rw [Bool.eq_iff_iff, Bool.not_eq_true', ← Bool.not_eq_true, Binary64.lt_iff, Binary64.le_iff]
      exact Int.not_lt.symm
  · rw [Binary64.le_iff] at hab hbc
    obtain ⟨early, hearly⟩ := compiles_window hbound a b
    obtain ⟨late, hlate⟩ := compiles_window hbound b c
    obtain ⟨whole, hwhole⟩ := compiles_window hbound a c
    obtain ⟨either, heither⟩ : (combine .or [window bound a b, window bound b c]).Compiles :=
      compiles_pair_iff.2 ⟨⟨early, hearly⟩, ⟨late, hlate⟩⟩
    refine ⟨early, late, either, whole, hearly, hlate, heither, hwhole, ?_, ?_⟩
    · refine disjoint_query hearly hlate fun m => ?_
      rw [admits_window_iff hbound, admits_window_iff hbound]
      omega
    · refine query_eq_of_admits heither hwhole fun m => ?_
      rw [admits_or_iff, admits_window_iff hbound]
      simp only [List.exists_mem_cons_iff, List.not_mem_nil, false_and, exists_const, or_false,
        admits_window_iff hbound]
      omega

/-- Lower bounds stand in the list of values, upper ones in the value. The time in the middle is
that of an encrypted message and is written with a fraction. -/
theorem time_filters_share_out_mixed :
    let operand (n : Number) : Value := ⟨.number n, trivial⟩
    let bound (c : Comparison) (n : Number) : RawFilter := match c with
      | .lt | .lte => leaf (.compare c) (some (operand n)) none
      | .gt | .gte => leaf (.compare c) none (some [operand n])
    let a := Number.ofNat 1500
    let b := Number.float (.ofInt 3000)
    let c := Number.ofNat 4500
    (∀ c n, (bound c n).Bounds c n) ∧ a.toBinary64.le b.toBinary64 = true ∧
    b.toBinary64.le c.toBinary64 = true ∧
    ∃ early late either whole,
      (window bound a b).compile = .ok early ∧ (window bound b c).compile = .ok late ∧
      (combine .or [window bound a b, window bound b c]).compile = .ok either ∧
      (window bound a c).compile = .ok whole ∧
      (Sample.mixed.query early).Disjoint (Sample.mixed.query late) ∧
      Sample.mixed.query either = Sample.mixed.query whole ∧
      (Sample.mixed.query early).map Message.key =
        ["%@bob.ed25519-1", "%@alice.ed25519-2", "%@bob.ed25519-2"] ∧
      (Sample.mixed.query late).map Message.key =
        ["%@alice.ed25519-3", "%@carol.ed25519-1", "%@alice.ed25519-4"] := by
  intro operand bound a b c
  have hbound : ∀ c n, (bound c n).Bounds c n := by
    intro c n
    cases c with
    | lt | lte => exact ⟨_, _, rfl, .inl ⟨rfl, nofun⟩⟩
    | gt | gte => exact ⟨_, _, rfl, .inr ⟨.inl rfl, rfl⟩⟩
  have hab : a.toBinary64.le b.toBinary64 = true := by decide +kernel
  have hbc : b.toBinary64.le c.toBinary64 = true := by decide +kernel
  obtain ⟨-, early, late, either, whole, hearly, hlate, heither, hwhole, hdisjoint, hquery⟩ :=
    time_filters_share_out Sample.mixed bound hbound hab hbc
  refine ⟨hbound, hab, hbc, early, late, either, whole, hearly, hlate, heither, hwhole, hdisjoint,
    hquery, ?_, ?_⟩
  · cases hearly
    decide +kernel
  · cases hlate
    decide +kernel

end Log

end FeedQuery
