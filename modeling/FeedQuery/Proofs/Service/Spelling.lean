import FeedQuery.Proofs.Filter.Congruence
import FeedQuery.Proofs.Service.Posts

/-!
Most operators that test a text of the message have another spelling: the equality of what stands at
a path with the text, together with the type of message that has the path. Leaves of a filter may
be spelled either way without any effect on the answer.
-/
namespace FeedQuery

namespace RawFilter

/-- A leaf that compares what stands at a path of the message with a text. -/
def slowEqual (path text : String) : RawFilter :=
  ⟨none, none, some "slowEqual", none, some [.string path, .string text]⟩

/-- The text operand of a leaf. -/
def textOperand? (value? : Option Value) (values? : Option (List Value)) : Option String :=
  (Operands.single? value? values? >>= Value.text?).toOption

end RawFilter

/-- The other spelling of an operator on a text, of those that look at one place only. -/
def TextOperator.spelling? (s : String) : TextOperator → Option RawFilter
  | .author => some (.slowEqual "value.author" s)
  | .key => some (.slowEqual "key" s)
  | .type => some (.slowEqual "value.content.type" s)
  | .channel => some (.slowEqual "value.content.channel" s)
  | .hasRoot => some (.slowEqual "value.content.root" s)
  | .hasFork => some (.slowEqual "value.content.fork" s)
  | .contact =>
    some (.every [.textLeaf .type "contact", .slowEqual "value.content.contact" s])
  | .about => some (.every [.textLeaf .type "about", .slowEqual "value.content.about" s])
  | .votesFor => some (.every [.textLeaf .type "vote", .slowEqual "value.content.vote.link" s])
  | .mentions | .fullMentions | .hasBranch => none

/-- The other spelling of a leaf, if its operator has one and its operand is a text. -/
def Leaf.spelling? (l : Leaf) : Option RawFilter :=
  match Operator.ofName? l.operator with
  | some (.text t) => (RawFilter.textOperand? l.value? l.values?).bind t.spelling?
  | _ => none

namespace RawFilter

/-- A leaf in wire form. -/
def ofLeaf (l : Leaf) : RawFilter := ⟨none, none, some l.operator, l.value?, l.values?⟩

mutual

/-- The filter with the leaves at chosen positions in their other spelling, where they have one. -/
def respell (chosen : Position → Bool) (p : Position) : RawFilter → RawFilter
  | ⟨none, none, some operator, value?, values?⟩ =>
    if chosen p then (Leaf.spelling? ⟨operator, value?, values?⟩).getD
      (ofLeaf ⟨operator, value?, values?⟩)
    else ofLeaf ⟨operator, value?, values?⟩
  | ⟨and?, or?, operator?, value?, values?⟩ =>
    ⟨respellList? chosen p .and and?, respellList? chosen p .or or?, operator?, value?, values?⟩

def respellList? (chosen : Position → Bool) (p : Position) (c : Combinator) :
    Option (List RawFilter) → Option (List RawFilter)
  | none => none
  | some fs => some (respellList chosen p c 0 fs)

def respellList (chosen : Position → Bool) (p : Position) (c : Combinator) (index : Nat) :
    List RawFilter → List RawFilter
  | [] => []
  | f :: fs => respell chosen (p.child c index) f :: respellList chosen p c (index + 1) fs

end

/-- A filter that compiles to a predicate wherever in a tree it stands. -/
def Yields (f : RawFilter) (p : Predicate) : Prop :=
  ∀ q, ∃ node, f.check q = .ok node ∧ ∀ q', node.compileAt q' = .ok p

theorem Alike.of_yields {R : Predicate → Predicate → Prop} {f g : RawFilter} {p p' : Predicate}
    (hf : f.Yields p) (hg : g.Yields p') (h : R p p') : Alike R f g := by
  intro q
  obtain ⟨node, hnode, hp⟩ := hf q
  obtain ⟨node', hnode', hp'⟩ := hg q
  rw [hnode, hnode']
  refine .ok fun q' => ?_
  rw [hp q', hp' q']
  exact .ok h

theorem yields_ofLeaf {l : Leaf} {op : Operator} {c : Condition}
    (hop : Operator.ofName? l.operator = some op) (hc : op.construct l.value? l.values? = .ok c) :
    (ofLeaf l).Yields (.condition c) := by
  refine fun q => ⟨.leaf l, rfl, fun q' => ?_⟩
  have hcompile : l.compile q' = .ok c := by
    rw [Leaf.compile, Operator.resolve, hop]
    show Except.mapError _ _ = _
    rw [hc]
    rfl
  rw [Filter.compileAt, hcompile]
  rfl

theorem yields_slowEqual {path : String} (hpath : path ≠ "") (s : String) :
    (slowEqual path s).Yields (.condition (.slowEqual (Text.cut '.' path) (.string s))) := by
  have hcut : Value.path? (.string path) = .ok (Text.cut '.' path) := by
    rw [Value.path?, Value.json_string]
    exact if_neg hpath
  have hc : Operator.slowEqual.construct none (some [.string path, .string s]) =
      .ok (.slowEqual (Text.cut '.' path) (.string s)) := by
    show (Value.path? (.string path)).map _ = _
    rw [hcut]
    rfl
  exact yields_ofLeaf (l := ⟨"slowEqual", none, _⟩) (Operator.ofName?_name .slowEqual) hc

theorem yields_textLeaf (t : TextOperator) (s : String) :
    (textLeaf t s).Yields (.condition (.text t s)) := by
  have hc : (Operator.text t).construct (some (.string s)) none = .ok (.text t s) := rfl
  exact yields_ofLeaf (l := ⟨t.name, _, none⟩) (Operator.ofName?_name (.text t)) hc

theorem Yields.every {f g : RawFilter} {p p' : Predicate} (hf : f.Yields p) (hg : g.Yields p') :
    (every [f, g]).Yields (.combine .and [p, p']) := by
  intro q
  obtain ⟨node, hnode, hp⟩ := hf (q.child .and 0)
  obtain ⟨node', hnode', hp'⟩ := hg (q.child .and 1)
  refine ⟨.combine .and [node, node'], ?_, fun q' => ?_⟩
  · rw [RawFilter.every, check, checkChildren, hnode, checkChildren, hnode']
    rfl
  · rw [Filter.compileAt, Filter.compileChildren, hp, Filter.compileChildren, hp']
    rfl

end RawFilter

namespace Message

theorem lookup?_content (m : Message) (name : String) :
    m.lookup? ["value", "content", name] = m.field? name := by
  show (m.field? name).bind some = _
  exact Option.bind_fun_some _

theorem lookup?_link (m : Message) :
    m.lookup? ["value", "content", "vote", "link"] = (m.field? "vote").bind (Json.get? "link") := by
  show (m.field? "vote").bind (fun j => (j.get? "link").bind some) = _
  simp only [Option.bind_fun_some]

end Message

theorem Condition.holds_slowEqual (m : Message) (path : List String) (s : String) :
    (Condition.slowEqual path (.string s)).holds m =
      ((m.lookup? path).bind Json.text? == some s) := by
  rw [holds]
  rcases m.lookup? path with _ | (_ | _ | _ | _ | _ | _) <;> rfl

namespace TextOperator

variable {t : TextOperator} {s path : String}

/-- An operator that looks for a text at one place. -/
theorem yields_slowEqual (segments : List String) (hpath : path ≠ "")
    (hcut : Text.cut '.' path = segments)
    (h : ∀ m : Message, t.holds m s = ((m.lookup? segments).bind Json.text? == some s)) :
    ∃ p, (RawFilter.slowEqual path s).Yields p ∧ Predicate.Same (.condition (.text t s)) p := by
  refine ⟨_, RawFilter.yields_slowEqual hpath s, fun m => ?_⟩
  rw [hcut, Predicate.holds, Predicate.holds, Condition.holds_slowEqual, Condition.holds, h]

/-- An operator that looks for a text at one place in messages of one type. -/
theorem yields_typed (type : String) (segments : List String) (hpath : path ≠ "")
    (hcut : Text.cut '.' path = segments) (h : ∀ m : Message, t.holds m s =
      (m.type? == some type && (m.lookup? segments).bind Json.text? == some s)) :
    ∃ p, (RawFilter.every [.textLeaf .type type, .slowEqual path s]).Yields p ∧
      Predicate.Same (.condition (.text t s)) p := by
  refine ⟨_, (RawFilter.yields_textLeaf .type type).every (RawFilter.yields_slowEqual hpath s),
    fun m => ?_⟩
  rw [hcut, Predicate.holds, Predicate.holds, Predicate.allHold, Predicate.allHold,
    Predicate.allHold, Predicate.holds, Predicate.holds, Condition.holds_slowEqual, Bool.and_true,
    Condition.holds, Condition.holds, h]
  rfl

/-- The other spelling of an operator compiles to a predicate that holds of the same messages. -/
theorem yields_spelling {g : RawFilter} (h : t.spelling? s = some g) :
    ∃ p, g.Yields p ∧ Predicate.Same (.condition (.text t s)) p := by
  have hfield (m : Message) (name : String) : (m.fieldText? name == some s) =
      ((m.lookup? ["value", "content", name]).bind Json.text? == some s) := by
    rw [Message.lookup?_content]
    rfl
  cases t <;> cases h
  case author => exact yields_slowEqual ["value", "author"] (by decide) (by decide) fun _ => rfl
  case key => exact yields_slowEqual ["key"] (by decide) (by decide) fun _ => rfl
  case type =>
    exact yields_slowEqual ["value", "content", "type"] (by decide) (by decide)
      fun m => hfield m "type"
  case channel =>
    exact yields_slowEqual ["value", "content", "channel"] (by decide) (by decide)
      fun m => hfield m "channel"
  case hasRoot =>
    exact yields_slowEqual ["value", "content", "root"] (by decide) (by decide)
      fun m => hfield m "root"
  case hasFork =>
    exact yields_slowEqual ["value", "content", "fork"] (by decide) (by decide)
      fun m => hfield m "fork"
  case contact =>
    refine yields_typed "contact" ["value", "content", "contact"] (by decide) (by decide) fun m => ?_
    rw [← hfield]
    rfl
  case about =>
    refine yields_typed "about" ["value", "content", "about"] (by decide) (by decide) fun m => ?_
    rw [← hfield]
    rfl
  case votesFor =>
    refine yields_typed "vote" ["value", "content", "vote", "link"] (by decide) (by decide)
      fun m => ?_
    rw [Message.lookup?_link]
    rfl

end TextOperator

namespace RawFilter

theorem construct_text (t : TextOperator) {value? : Option Value} {values? : Option (List Value)}
    {s : String} (h : textOperand? value? values? = some s) :
    (Operator.text t).construct value? values? = .ok (.text t s) := by
  obtain ⟨v, hv, hs⟩ := bind_eq_ok_iff.1 (toOption_eq_some_iff.1 h)
  show ((Operands.single? value? values?).map Operands.single >>= (Operator.text t).build) = _
  rw [hv]
  show v.text?.map _ = _
  rw [hs]
  rfl

/-- A leaf and its other spelling hold of the same messages. -/
theorem alike_spelling {l : Leaf} {g : RawFilter} (h : l.spelling? = some g) :
    Alike Predicate.Same (ofLeaf l) g := by
  unfold Leaf.spelling? at h
  split at h
  · rename_i t hop
    obtain ⟨s, hs, hg⟩ := Option.bind_eq_some_iff.1 h
    obtain ⟨p, hp, hsame⟩ := TextOperator.yields_spelling hg
    exact .of_yields (yields_ofLeaf hop (construct_text t hs)) hp hsame
  · cases h

mutual

/-- Leaves may be spelled either way. -/
theorem alike_respell (chosen : Position → Bool) :
    (p : Position) → (f : RawFilter) → Alike Predicate.Same f (f.respell chosen p)
  | p, ⟨and?, or?, operator?, value?, values?⟩ => by
    unfold respell
    split
    -- Only a node that sets no list is a leaf; any other one counts for its children.
    case h_1 operator value? values? heq =>
      cases heq
      split
      · cases hl : Leaf.spelling? ⟨operator, value?, values?⟩ with
        | none => exact .refl Predicate.congruence_same _
        | some g => exact alike_spelling hl
      · exact .refl Predicate.congruence_same _
    case h_2 heq =>
      cases heq
      exact .node Predicate.congruence_same (alike_respellList? chosen p .and and?)
        (alike_respellList? chosen p .or or?) fun _ => rfl

theorem alike_respellList? (chosen : Position → Bool) (p : Position) (c : Combinator) :
    (fs? : Option (List RawFilter)) →
      Option.Rel (List.Forall₂ (Alike Predicate.Same)) fs? (respellList? chosen p c fs?)
  | none => .none
  | some fs => .some (alike_respellList chosen p c 0 fs)

theorem alike_respellList (chosen : Position → Bool) (p : Position) (c : Combinator) :
    (index : Nat) → (fs : List RawFilter) →
      List.Forall₂ (Alike Predicate.Same) fs (respellList chosen p c index fs)
  | _, [] => .nil
  | index, f :: fs =>
    .cons (alike_respell chosen (p.child c index) f) (alike_respellList chosen p c (index + 1) fs)

end

end RawFilter

theorem Log.query_congr {p q : Predicate} (h : Predicate.Same p q) (l : Log) :
    l.query p = l.query q := List.filter_congr fun m _ => h m

namespace Service

theorem narrow_congr {p q : Predicate} (h : Predicate.Same p q) (postsOnly : Bool) :
    Predicate.Same (narrow postsOnly p) (narrow postsOnly q) := by
  cases postsOnly with
  | false => exact h
  | true =>
    exact Predicate.congruence_same.combine .and (.cons (Predicate.congruence_same.refl _)
      (.cons h .nil))

/-- Filters that compile to predicates of the same messages are answered alike. -/
theorem answer_congr {f g : RawFilter} (h : Agree Predicate.Same f.compile g.compile)
    (s : Service) (postsOnly : Bool) (paginate? : Option UInt64) (l : Log)
    (accesses : List Access) :
    (s.answer postsOnly ⟨f, paginate?⟩ ⟨l, none, accesses⟩).1 =
      (s.answer postsOnly ⟨g, paginate?⟩ ⟨l, none, accesses⟩).1 := by
  cases hf : f.compile <;> cases hg : g.compile <;> rw [hf, hg] at h <;> cases h
  case error.error e => rw [answer_of_error hf, answer_of_error hg]
  case ok.ok p q hsame =>
    rw [answer_of_ok hf, answer_of_ok hg, run_fst s _ _ rfl, run_fst s _ _ rfl]
    dsimp only
    rw [Log.query_congr (narrow_congr hsame postsOnly)]

/-- Leaves of a filter at any positions may be put into their other spelling: the filter compiles
to a predicate of the same messages or fails with the same error, and a query with it is answered
alike, at once or page by page. -/
theorem respell_unobservable (f : RawFilter) (chosen : Position → Bool) :
    Agree (fun p q => ∀ l : Log, l.query p = l.query q) f.compile
      (f.respell chosen .root).compile ∧
    ∀ (s : Service) (postsOnly : Bool) (paginate? : Option UInt64) (l : Log)
      (accesses : List Access),
      (s.answer postsOnly ⟨f.respell chosen .root, paginate?⟩ ⟨l, none, accesses⟩).1 =
        (s.answer postsOnly ⟨f, paginate?⟩ ⟨l, none, accesses⟩).1 := by
  have hsame := (RawFilter.alike_respell chosen .root f).compile
  exact ⟨hsame.imp fun _ _ => Log.query_congr, fun s postsOnly paginate? l accesses =>
    (answer_congr hsame s postsOnly paginate? l accesses).symm⟩

/-- Votes for a message or its author's posts: only the second leaf is put into its other
spelling. -/
example : RawFilter.respell (fun p => p.steps == [(.or, 1)]) .root
    ⟨none, some [.textLeaf .author "@a", .textLeaf .votesFor "%m"], none, none, none⟩ =
    ⟨none, some [.textLeaf .author "@a",
      .every [.textLeaf .type "vote", .slowEqual "value.content.vote.link" "%m"]],
      none, none, none⟩ := rfl

end Service

end FeedQuery
