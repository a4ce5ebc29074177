import Mathlib.Data.List.Forall2
import FeedQuery.Filter.Compile
import FeedQuery.Log
import FeedQuery.Proofs.Filter.Reading
import FeedQuery.Proofs.Outcome
import FeedQuery.Proofs.Text.Cut
import FeedQuery.Sample

/-!
A compiled filter holds of exactly the messages that its wire form admits.
-/
namespace FeedQuery

namespace Json

variable {j : Json}

theorem text?_eq_some_iff {s : String} : j.text? = some s ↔ j = .string s := by
  cases j <;> simp [text?]

theorem isNull_iff : j.isNull = true ↔ j = .null := by
  cases j <;> simp [isNull]

theorem linksTo_iff {s : String} :
    (j.get? "link").bind text? = some s ↔ j.LinksTo s := by
  simp [Option.bind_eq_some_iff, get?_eq_some_iff, text?_eq_some_iff, LinksTo]

end Json

namespace Message

variable {m : Message}

theorem field?_eq_some_iff {name : String} {v : Json} :
    m.field? name = some v ↔ m.HasField name v := Json.get?_eq_some_iff

theorem fieldText?_eq_some_iff {name s : String} :
    m.fieldText? name = some s ↔ m.HasText name s := by
  simp [fieldText?, Option.bind_eq_some_iff, field?_eq_some_iff, Json.text?_eq_some_iff, HasText]

theorem mentionsFeed_iff {bare : Bool} {id : String} {j : Json} :
    mentionsFeed bare id j = true ↔ bare = true ∧ j = .string id ∨ j.LinksTo id := by
  cases j with
  | string link => simp [mentionsFeed, Json.LinksTo, Json.HasField]
  | object fields =>
    rw [mentionsFeed, beq_iff_eq, Json.linksTo_iff]
    simp
  | _ => simp [mentionsFeed, Json.LinksTo, Json.HasField]

theorem mentions_iff {bare : Bool} {id : String} : m.mentions bare id = true ↔
    ∃ items, m.HasField "mentions" (.array items) ∧
      ∃ item ∈ items, bare = true ∧ item = .string id ∨ item.LinksTo id := by
  unfold mentions
  split
  · rename_i entries h
    simp [← field?_eq_some_iff, h, mentionsFeed_iff]
  · rename_i hnone
    constructor
    · intro h
      cases h
    · rintro ⟨items, hitems, -⟩
      exact absurd (field?_eq_some_iff.2 hitems) (hnone items)

theorem hasBranch_iff {key : String} : m.hasBranch key = true ↔
    m.HasText "branch" key ∨ ∃ items, m.HasField "branch" (.array items) ∧ .string key ∈ items := by
  unfold hasBranch HasText
  split
  · rename_i b h
    simp [← field?_eq_some_iff, h]
  · rename_i bs h
    simp [← field?_eq_some_iff, h, Json.text?_eq_some_iff]
  · rename_i hstring harray
    constructor
    · intro h
      cases h
    · rintro (h | ⟨items, hitems, -⟩)
      · exact absurd (field?_eq_some_iff.2 h) (hstring key)
      · exact absurd (field?_eq_some_iff.2 hitems) (harray items)

theorem votesFor_iff {key : String} : m.votesFor key = true ↔
    m.HasText "type" "vote" ∧ ∃ vote, m.HasField "vote" vote ∧ vote.LinksTo key := by
  rw [votesFor, Bool.and_eq_true, type?, beq_iff_eq, fieldText?_eq_some_iff]
  simp [Option.bind_eq_some_iff, field?_eq_some_iff, Json.get?_eq_some_iff,
    Json.text?_eq_some_iff, Json.LinksTo]

theorem isRoot_iff : m.isRoot = true ↔ ∀ v, m.HasField "root" v → v = .null := by
  simp only [isRoot, Option.all_eq_true, field?_eq_some_iff, Json.isNull_iff]

theorem isPrivate_iff : m.isPrivate = true ↔ m.Hidden := by
  rw [isPrivate, Bool.or_eq_true, Hidden]
  apply or_congr
  · cases m.entry.content.json <;> simp [Json.isString]
  · rcases m.flags? with _ | ⟨_ | _⟩ <;> simp

end Message

namespace Value

variable {v : Value} {s : String}

theorem json_eq_null_iff : v.json = .null ↔ v = .null := by
  constructor
  · intro h
    cases v
    cases h
    rfl
  · rintro rfl
    rfl

theorem text?_eq_ok_iff : v.text? = .ok s ↔ v.IsText s := by
  unfold text? IsText
  split
  · rename_i t h
    simp [h, Json.HasField]
  · rename_i fields h
    rw [h, ← Json.get?_eq_some_iff]
    split
    · rename_i id hid
      simp [hid]
    · rename_i hid
      simpa using hid s
  · rename_i hstring hobject
    constructor
    · intro h
      cases h
    · rintro (h | ⟨fields, h, -⟩)
      · exact (hstring s h).elim
      · exact (hobject fields h).elim

theorem number?_eq_ok_iff {x : Binary64} : v.number? = .ok x ↔ v.IsNumber x := by
  unfold number? IsNumber
  split
  · rename_i n h
    simp [h]
  · rename_i hnumber
    constructor
    · intro h
      cases h
    · rintro ⟨n, h, -⟩
      exact (hnumber n h).elim

/-- An operand that is taken for a path reads as that path only. -/
theorem isPath_iff_of_path? {path path' : List String} (h : v.path? = .ok path) :
    v.IsPath path' ↔ path' = path := by
  unfold path? at h
  split at h
  · rename_i t ht
    split at h
    · cases h
    · have hcut : Text.cut '.' t = path := Except.ok.inj h
      have hsingle : String.singleton '.' = "." := rfl
      rw [← hcut, IsPath, ht, Json.string.injEq, eq_comm (b := Text.cut '.' t), Text.cut_eq_iff,
        hsingle, eq_comm (a := t)]
  · cases h

end Value

namespace RawFilter

variable {value? : Option Value} {values? : Option (List Value)} {v w : Value}

theorem isOperand_of_single? (h : Operands.single? value? values? = .ok v) :
    IsOperand value? values? v := by
  unfold Operands.single? at h
  split at h
  · rename_i u hu
    cases h
    obtain ⟨hvalue, hnull⟩ := Option.filter_eq_some_iff.1 hu
    rw [Bool.not_eq_true', ← Bool.not_eq_true, Json.isNull_iff] at hnull
    exact .inl ⟨hvalue, hnull⟩
  · rename_i u hu
    split at h
    · cases h
    · cases h
      refine .inr ⟨?_, rfl⟩
      rcases value? with _ | w
      · exact .inl rfl
      · have hnull := Option.filter_eq_none_iff.1 hu w rfl
        rw [Bool.not_eq_true', Bool.not_eq_false, Json.isNull_iff] at hnull
        exact .inr (congrArg some (Value.json_eq_null_iff.1 hnull))
  · cases h
  · cases h

theorem IsOperand.unique (hv : IsOperand value? values? v) (hw : IsOperand value? values? w) :
    w = v := by
  rcases hv with ⟨hv, hvnull⟩ | ⟨hv, hvs⟩
  · rcases hw with ⟨hw, -⟩ | ⟨hw, -⟩
    · exact Option.some.inj (hw.symm.trans hv)
    · rcases hw with hw | hw
      · cases hw.symm.trans hv
      · cases hw.symm.trans hv
        exact absurd rfl hvnull
  · rcases hw with ⟨hw, hwnull⟩ | ⟨-, hws⟩
    · rcases hv with hv | hv
      · cases hv.symm.trans hw
      · cases hv.symm.trans hw
        exact absurd rfl hwnull
    · cases hws.symm.trans hvs
      rfl

/-- A leaf whose operand is taken and reads as one value says what it says of that value. -/
theorem onOperand_iff {α : Type} {Reads : Value → α → Prop} {P : α → Prop} {x : α}
    (hv : Operands.single? value? values? = .ok v) (hx : ∀ y, Reads v y ↔ y = x) :
    OnOperand Reads value? values? P ↔ P x := by
  have hoperand := isOperand_of_single? hv
  constructor
  · rintro ⟨w, y, hw, hy, hP⟩
    rw [hoperand.unique hw] at hy
    rw [← (hx y).1 hy]
    exact hP
  · intro hP
    exact ⟨v, x, hoperand, (hx x).2 rfl, hP⟩

theorem onText_iff {P : String → Prop} {s : String} (hv : Operands.single? value? values? = .ok v)
    (hs : v.text? = .ok s) : OnText value? values? P ↔ P s := by
  apply onOperand_iff hv
  intro t
  rw [← Value.text?_eq_ok_iff, hs, Except.ok.injEq, eq_comm]

theorem onNumber_iff {P : Binary64 → Prop} {x : Binary64}
    (hv : Operands.single? value? values? = .ok v) (hx : v.number? = .ok x) :
    OnNumber value? values? P ↔ P x := by
  apply onOperand_iff hv
  intro y
  rw [← Value.number?_eq_ok_iff, hx, Except.ok.injEq, eq_comm]

end RawFilter

theorem Operands.list?_two {values? : Option (List Value)} {vs : List Value}
    (h : list? 2 values? = .ok vs) : ∃ v w, vs = [v, w] ∧ values? = some [v, w] := by
  unfold list? at h
  split at h
  · cases h
  · cases h
  · split at h
    · rename_i hlength
      cases h
      match vs, hlength with
      | [v, w], _ => exact ⟨v, w, rfl, rfl⟩
    · cases h

namespace Operator

variable {value? : Option Value} {values? : Option (List Value)} {c : Condition}

theorem construct_eq_ok_iff {op : Operator} : op.construct value? values? = .ok c ↔
    ∃ operands, Operands.select op.arity value? values? = .ok operands ∧
      op.build operands = .ok c := bind_eq_ok_iff

theorem construct_text {t : TextOperator} (h : (text t).construct value? values? = .ok c) :
    ∃ v s, Operands.single? value? values? = .ok v ∧ v.text? = .ok s ∧ c = .text t s := by
  obtain ⟨operands, hselect, hbuild⟩ := construct_eq_ok_iff.1 h
  obtain ⟨v, hv, rfl⟩ := map_eq_ok_iff.1 hselect
  obtain ⟨s, hs, rfl⟩ := map_eq_ok_iff.1 hbuild
  exact ⟨v, s, hv, hs, rfl⟩

theorem construct_compare {op : Comparison} (h : (compare op).construct value? values? = .ok c) :
    ∃ v x, Operands.single? value? values? = .ok v ∧ v.number? = .ok x ∧
      c = .compare timestampField op (.finite x) := by
  obtain ⟨operands, hselect, hbuild⟩ := construct_eq_ok_iff.1 h
  obtain ⟨v, hv, rfl⟩ := map_eq_ok_iff.1 hselect
  obtain ⟨x, hx, rfl⟩ := map_eq_ok_iff.1 hbuild
  exact ⟨v, x, hv, hx, rfl⟩

theorem construct_flag {f : FlagOperator} (h : (flag f).construct value? values? = .ok c) :
    c = .flag f := by
  obtain ⟨operands, -, hbuild⟩ := construct_eq_ok_iff.1 h
  exact (Except.ok.inj hbuild).symm

theorem construct_slowEqual (h : slowEqual.construct value? values? = .ok c) :
    ∃ pathOperand v path, values? = some [pathOperand, v] ∧ pathOperand.path? = .ok path ∧
      c = .slowEqual path v := by
  obtain ⟨operands, hselect, hbuild⟩ := construct_eq_ok_iff.1 h
  obtain ⟨vs, hvs, rfl⟩ := map_eq_ok_iff.1 hselect
  obtain ⟨pathOperand, v, rfl, rfl⟩ := Operands.list?_two hvs
  obtain ⟨path, hpath, rfl⟩ := map_eq_ok_iff.1 hbuild
  exact ⟨pathOperand, v, path, rfl, hpath, rfl⟩

theorem name_of_ofName? {name : String} {op : Operator} (h : ofName? name = some op) :
    op.name = name := by
  have hfound := List.find?_some h
  simpa using hfound

theorem name_of_resolve {name : String} {p : Position} {op : Operator}
    (h : resolve name p = .ok op) : op.name = name := by
  unfold resolve at h
  split at h
  · rename_i hfound
    cases h
    exact name_of_ofName? hfound
  · cases h

end Operator

theorem Filter.compileAt_combine {c : Combinator} {nodes : List Filter} {q : Position}
    {pred : Predicate} (h : (combine c nodes).compileAt q = .ok pred) :
    ∃ preds, compileChildren q c 0 nodes = .ok preds ∧ pred = .combine c preds := by
  cases nodes with
  | nil => cases h
  | cons node nodes =>
    rw [compileAt] at h
    obtain ⟨preds, hpreds, rfl⟩ := map_eq_ok_iff.1 h
    exact ⟨preds, hpreds, rfl⟩

namespace RawFilter

variable {m : Message} {value? : Option Value} {values? : Option (List Value)} {v : Value}

theorem textHolds_iff {t : TextOperator} {s : String} (hv : Operands.single? value? values? = .ok v)
    (hs : v.text? = .ok s) : t.holds m s = true ↔ LeafAdmits m t.name value? values? := by
  cases t <;>
    simp only [LeafAdmits, TextOperator.name, onText_iff hv hs, TextOperator.holds, Message.type?,
      Bool.and_eq_true, beq_iff_eq, Message.fieldText?_eq_some_iff, Message.author,
      Message.votesFor_iff, Message.hasBranch_iff, Message.mentions_iff, Bool.false_eq_true,
      true_and, false_and, false_or]

theorem compareHolds_iff {op : Comparison} {x : Binary64}
    (hv : Operands.single? value? values? = .ok v) (hx : v.number? = .ok x) :
    (Condition.compare Operator.timestampField op (.finite x)).holds m = true ↔
      LeafAdmits m op.name value? values? := by
  have hnumber : m.number? Operator.timestampField = some m.entry.timestamp := rfl
  rw [Condition.holds, hnumber, Option.any_some]
  cases op <;> simp [LeafAdmits, Comparison.name, onNumber_iff hv hx, Comparison.holds, Message.time]

theorem flagHolds_iff {f : FlagOperator} :
    f.holds m = true ↔ LeafAdmits m f.name value? values? := by
  cases f with
  | isRoot => exact Message.isRoot_iff
  | isPrivate => exact Message.isPrivate_iff
  | isPublic =>
    rw [FlagOperator.holds, Bool.not_eq_true', ← Bool.not_eq_true, Message.isPrivate_iff]
    rfl

theorem slowEqualHolds_iff {pathOperand : Value} {path : List String}
    (hpath : pathOperand.path? = .ok path) : (Condition.slowEqual path v).holds m = true ↔
      LeafAdmits m "slowEqual" value? (some [pathOperand, v]) := by
  rw [Condition.holds, Option.any_eq_true]
  simp only [LeafAdmits, Message.lookup?_eq_some_iff]
  constructor
  · rintro ⟨found, hfound, hsame⟩
    exact ⟨pathOperand, v, path, found, rfl, (Value.isPath_iff_of_path? hpath).2 rfl, hfound, hsame⟩
  · rintro ⟨_, _, path', found, h, hpath', hfound, hsame⟩
    cases h
    rw [(Value.isPath_iff_of_path? hpath).1 hpath'] at hfound
    exact ⟨found, hfound, hsame⟩

/-- A leaf that compiles holds of the messages that it admits. -/
theorem leafHolds_iff {l : Leaf} {q : Position} {c : Condition} (h : l.compile q = .ok c) :
    c.holds m = true ↔ LeafAdmits m l.operator l.value? l.values? := by
  obtain ⟨op, hop, h⟩ := bind_eq_ok_iff.1 h
  have hname : op.name = l.operator := Operator.name_of_resolve hop
  rw [← hname]
  rw [mapError_eq_ok_iff] at h
  cases op with
  | text t =>
    obtain ⟨v, s, hv, hs, rfl⟩ := Operator.construct_text h
    exact textHolds_iff hv hs
  | flag f =>
    cases Operator.construct_flag h
    exact flagHolds_iff
  | slowEqual =>
    obtain ⟨pathOperand, v, path, hvalues, hpath, rfl⟩ := Operator.construct_slowEqual h
    rw [hvalues]
    exact slowEqualHolds_iff hpath
  | compare c =>
    obtain ⟨v, x, hv, hx, rfl⟩ := Operator.construct_compare h
    exact compareHolds_iff hv hx

theorem allHold_iff {fs : List RawFilter} {ps : List Predicate}
    (h : List.Forall₂ (fun f p => p.holds m = true ↔ f.Admits m) fs ps) :
    Predicate.allHold m ps = true ↔ AllAdmit m fs := by
  induction h with
  | nil => simp [AllAdmit]
  | cons head tail ih => rw [Predicate.allHold, Bool.and_eq_true, head, ih, AllAdmit]

theorem anyHolds_iff {fs : List RawFilter} {ps : List Predicate}
    (h : List.Forall₂ (fun f p => p.holds m = true ↔ f.Admits m) fs ps) :
    Predicate.anyHolds m ps = true ↔ SomeAdmits m fs := by
  induction h with
  | nil => simp [SomeAdmits]
  | cons head tail ih => rw [Predicate.anyHolds, Bool.or_eq_true, head, ih, SomeAdmits]

-- The tree and the lists of children by turns. Positions are free: they only name an error.
mutual

/-- A filter that compiles holds of the messages that it admits. -/
theorem holds_iff : ∀ {f : RawFilter} {p q : Position} {node : Filter} {pred : Predicate},
    f.check p = .ok node → node.compileAt q = .ok pred → (pred.holds m = true ↔ f.Admits m)
  | ⟨some cs, none, none, _, _⟩, _, _, _, _, hcheck, hcompile => by
    rw [check] at hcheck
    obtain ⟨nodes, hnodes, rfl⟩ := map_eq_ok_iff.1 hcheck
    obtain ⟨preds, hpreds, rfl⟩ := Filter.compileAt_combine hcompile
    exact allHold_iff (forall₂_holds_iff hnodes hpreds)
  | ⟨none, some cs, none, _, _⟩, _, _, _, _, hcheck, hcompile => by
    rw [check] at hcheck
    obtain ⟨nodes, hnodes, rfl⟩ := map_eq_ok_iff.1 hcheck
    obtain ⟨preds, hpreds, rfl⟩ := Filter.compileAt_combine hcompile
    exact anyHolds_iff (forall₂_holds_iff hnodes hpreds)
  | ⟨none, none, some operator, value?, values?⟩, _, _, _, _, hcheck, hcompile => by
    rw [check] at hcheck
    cases hcheck
    obtain ⟨c, hc, rfl⟩ := map_eq_ok_iff.1 hcompile
    exact leafHolds_iff hc
  | ⟨none, none, none, _, _⟩, _, _, _, _, hcheck, _ => by
    cases hcheck
  | ⟨some _, some _, _, _, _⟩, _, _, _, _, hcheck, _ => by
    cases hcheck
  | ⟨some _, none, some _, _, _⟩, _, _, _, _, hcheck, _ => by
    cases hcheck
  | ⟨none, some _, some _, _, _⟩, _, _, _, _, hcheck, _ => by
    cases hcheck

theorem forall₂_holds_iff : ∀ {fs : List RawFilter} {p q : Position} {c d : Combinator} {i j : Nat}
    {nodes : List Filter} {preds : List Predicate}, checkChildren p c i fs = .ok nodes →
    Filter.compileChildren q d j nodes = .ok preds →
    List.Forall₂ (fun f p => p.holds m = true ↔ f.Admits m) fs preds
  | [], _, _, _, _, _, _, _, _, hcheck, hcompile => by
    cases hcheck
    cases hcompile
    exact .nil
  | f :: fs, _, _, _, _, _, _, _, _, hcheck, hcompile => by
    rw [checkChildren] at hcheck
    obtain ⟨node, hnode, hcheck⟩ := bind_eq_ok_iff.1 hcheck
    obtain ⟨nodes, hnodes, hcheck⟩ := bind_eq_ok_iff.1 hcheck
    cases hcheck
    rw [Filter.compileChildren] at hcompile
    obtain ⟨pred, hpred, hcompile⟩ := bind_eq_ok_iff.1 hcompile
    obtain ⟨preds, hpreds, hcompile⟩ := bind_eq_ok_iff.1 hcompile
    cases hcompile
    exact .cons (holds_iff hnode hpred) (forall₂_holds_iff hnodes hpreds)

end

open scoped Classical in
/-- A query of a compiled filter answers exactly the messages that the filter admits, in log order
and as often as they are in the log. -/
theorem query_compile_eq_filter_admits {f : RawFilter} {pred : Predicate}
    (h : f.compile = .ok pred) (l : Log) :
    l.query pred = l.messages.filter fun m => decide (f.Admits m) := by
  obtain ⟨node, hnode, hpred⟩ := bind_eq_ok_iff.1 h
  rw [mapError_eq_ok_iff] at hnode
  rw [Log.query]
  apply List.filter_congr
  intro m _
  rw [Bool.eq_iff_iff, decide_eq_true_iff]
  exact holds_iff hnode hpred

open scoped Classical in
/-- Alice's messages that mention bob or came after a time, and no encrypted ones. -/
theorem query_compile_eq_filter_admits_mixed :
    let leaf (operator : String) (value? : Option Value) (values? : Option (List Value)) :
      RawFilter := ⟨none, none, some operator, value?, values?⟩
    let f : RawFilter := ⟨some [leaf "author" (some .null) (some [.string Sample.alice]),
      ⟨none, some [leaf "mentions" (some (.ofJson (.object [("id", .string Sample.bob)]))) none,
        leaf "gte" (some (.ofJson (.number (.ofNat 4000)))) none], none, none, none⟩,
      leaf "isPublic" none none], none, none, none, none⟩
    ∃ pred, f.compile = .ok pred ∧
      Sample.mixed.query pred = Sample.mixed.messages.filter (fun m => decide (f.Admits m)) ∧
      (Sample.mixed.query pred).map Message.key =
        ["%@alice.ed25519-2", "%@alice.ed25519-4", "%@alice.ed25519-5"] := by
  intro leaf f
  have hf : f.compile = .ok (.combine .and [.condition (.text .author Sample.alice),
    .combine .or [.condition (.text .mentions Sample.bob),
      .condition (.compare "timestamp" .gte (.finite (.ofInt 4000)))],
    .condition (.flag .isPublic)]) := rfl
  exact ⟨_, hf, query_compile_eq_filter_admits hf Sample.mixed, by decide +kernel⟩

end RawFilter

end FeedQuery
