import FeedQuery.Proofs.Filter.Exchange
import FeedQuery.Proofs.Filter.WireForm
import Mathlib.Logic.Relation

/-!
The laws of `and` and `or` in filters. Whether a filter compiles and what it says about a message
both depend on its children only, so what holds of two nodes also holds of two trees that have them
at the same place.
-/
namespace FeedQuery

/-- The combinator over which a combinator distributes. -/
def Combinator.other : Combinator → Combinator
  | .and => .or
  | .or => .and

namespace RawFilter

/-- A combinator in wire form. -/
def combine (c : Combinator) (fs : List RawFilter) : RawFilter := withList default c fs

def Compiles (f : RawFilter) : Prop := ∃ p, f.compile = .ok p

/-- The laws, each for one node. -/
inductive Law : RawFilter → RawFilter → Prop where
  /-- Operands at a combinator count for nothing. -/
  | stray (c : Combinator) (fs : List RawFilter) (value? : Option Value)
      (values? : Option (List Value)) :
      Law { combine c fs with value? := value?, values? := values? } (combine c fs)
  | permuted (c : Combinator) {fs gs : List RawFilter} (h : fs.Perm gs) :
      Law (combine c fs) (combine c gs)
  | repeated (c : Combinator) (before behind : List RawFilter) {f : RawFilter}
      (h : f ∈ before ++ behind) :
      Law (combine c (before ++ behind)) (combine c (before ++ f :: behind))
  | wrapped (c : Combinator) (f : RawFilter) : Law f (combine c [f])
  | flattened (c : Combinator) (before behind : List RawFilter) {fs : List RawFilter}
      (h : fs ≠ []) :
      Law (combine c (before ++ combine c fs :: behind)) (combine c (before ++ (fs ++ behind)))
  | distributed (c : Combinator) (f g k : RawFilter) :
      Law (combine c [f, combine c.other [g, k]])
        (combine c.other [combine c [f, g], combine c [f, k]])
  | absorbed (c : Combinator) (f : RawFilter) {g : RawFilter} (h : g.Compiles) :
      Law (combine c [f, combine c.other [f, g]]) f

variable {f g : RawFilter} {c d : Combinator} {fs gs : List RawFilter} {m : Message}

theorem list?_withList (f : RawFilter) (c d : Combinator) (fs : List RawFilter) :
    (f.withList c fs).list? d = if d = c then some fs else f.list? d := by
  cases c <;> cases d <;> rfl

theorem list?_combine_eq_some_iff : (combine c fs).list? d = some gs ↔ d = c ∧ fs = gs := by
  rw [combine, list?_withList]
  cases c <;> cases d <;> simp [list?]

/-- Soundness looks at a list of children only for whether it is empty. -/
theorem Sound.withList (h : (f.withList c fs).Sound) (hgs : gs ≠ []) : (f.withList c gs).Sound := by
  refine ⟨?_, fun d hd => ?_, ?_⟩
  · cases c <;> exact h.shaped
  · have hnonempty := h.nonempty d
    rw [list?_withList] at hd hnonempty
    by_cases hdc : d = c
    · rw [if_pos hdc] at hd
      exact hgs (Option.some.inj hd)
    · rw [if_neg hdc] at hd hnonempty
      exact hnonempty hd
  · cases c <;> exact h.leaf

theorem sound_combine_iff : (combine c fs).Sound ↔ fs ≠ [] := by
  constructor
  · intro h hfs
    exact h.nonempty c (list?_combine_eq_some_iff.2 ⟨rfl, hfs⟩)
  · intro hfs
    refine ⟨by cases c <;> rfl, fun d hd => hfs (list?_combine_eq_some_iff.1 hd).2, ?_⟩
    intro name hname
    cases c <;> cases hname

theorem compiles_iff_forall_sound :
    f.Compiles ↔ ∀ steps g, f.node? steps = some g → g.Sound := by
  have hsound : f.Compiles ↔ ∀ q ∈ f.nodes .root, q.2.Sound := by
    rcases f.compile_cases with ⟨p, hp, hsound⟩ | ⟨e, he, hreports⟩
    · exact iff_of_true ⟨p, hp⟩ hsound
    · refine iff_of_false ?_ hreports.not_sound
      rintro ⟨p, hp⟩
      cases hp.symm.trans he
  rw [hsound]
  constructor
  · intro h steps g hg
    exact h (⟨_, _⟩, g) (mem_nodes_iff.2 ⟨steps, hg, rfl⟩)
  · rintro h ⟨q, g⟩ hq
    obtain ⟨steps, hg, -⟩ := mem_nodes_iff.1 hq
    exact h steps g hg

/-- A filter compiles if its root is sound and all its children compile. -/
theorem compiles_iff : f.Compiles ↔
    f.Sound ∧ ∀ c fs, f.list? c = some fs → ∀ g ∈ fs, g.Compiles := by
  simp only [compiles_iff_forall_sound]
  constructor
  · intro h
    refine ⟨h [] f rfl, fun c fs hfs g hg steps k hk => ?_⟩
    obtain ⟨index, hindex⟩ := List.mem_iff_getElem?.1 hg
    apply h ((c, index) :: steps) k
    rw [node?, hfs, Option.bind_some, hindex, Option.bind_some, hk]
  · rintro ⟨hroot, hbelow⟩ (_ | ⟨⟨c, index⟩, steps⟩) k hk
    · cases hk
      exact hroot
    · rw [node?] at hk
      obtain ⟨g, hg, hk⟩ := Option.bind_eq_some_iff.1 hk
      obtain ⟨fs, hfs, hindex⟩ := Option.bind_eq_some_iff.1 hg
      exact hbelow c fs hfs g (List.mem_of_getElem? hindex) steps k hk

@[simp] theorem compiles_combine_iff :
    (combine c fs).Compiles ↔ fs ≠ [] ∧ ∀ f ∈ fs, f.Compiles := by
  rw [compiles_iff, sound_combine_iff]
  refine and_congr_right fun _ => ?_
  constructor
  · intro h
    exact h c fs (list?_combine_eq_some_iff.2 ⟨rfl, rfl⟩)
  · intro h d gs hgs
    obtain ⟨rfl, rfl⟩ := list?_combine_eq_some_iff.1 hgs
    exact h

theorem compiles_pair_iff : (combine c [f, g]).Compiles ↔ f.Compiles ∧ g.Compiles := by simp

theorem allAdmit_iff : AllAdmit m fs ↔ ∀ f ∈ fs, f.Admits m := by
  induction fs with
  | nil => simp [AllAdmit]
  | cons f fs ih => rw [AllAdmit, ih, List.forall_mem_cons]

theorem someAdmits_iff : SomeAdmits m fs ↔ ∃ f ∈ fs, f.Admits m := by
  induction fs with
  | nil => simp [SomeAdmits]
  | cons f fs ih => rw [SomeAdmits, ih, List.exists_mem_cons_iff]

@[simp] theorem admits_and_iff : (combine .and fs).Admits m ↔ ∀ f ∈ fs, f.Admits m := allAdmit_iff

@[simp] theorem admits_or_iff : (combine .or fs).Admits m ↔ ∃ f ∈ fs, f.Admits m := someAdmits_iff

/-- Filters that both compile or both do not, and say the same about every message. -/
structure Equivalent (f g : RawFilter) : Prop where
  compiles : f.Compiles ↔ g.Compiles
  admits : ∀ m, f.Admits m ↔ g.Admits m

namespace Equivalent

/-- Of the children of a combinator only counts which there are. -/
theorem of_mem_iff (c : Combinator) (h : ∀ f, f ∈ fs ↔ f ∈ gs) :
    Equivalent (combine c fs) (combine c gs) := by
  have hnil : fs ≠ [] ↔ gs ≠ [] := by
    simp only [ne_eq, List.eq_nil_iff_forall_not_mem, h]
  refine ⟨?_, fun m => ?_⟩
  · simp only [compiles_combine_iff, hnil, h]
  · cases c with
    | and => simp only [admits_and_iff, h]
    | or => simp only [admits_or_iff, h]

theorem of_law (h : Law f g) : Equivalent f g := by
  cases h with
  | stray c fs value? values? =>
    refine ⟨?_, fun m => ?_⟩
    · cases c <;> exact .rfl
    · cases c <;> exact .rfl
  | permuted c h => exact of_mem_iff c fun f => h.mem_iff
  | @repeated c before behind f h =>
    refine of_mem_iff c fun g => ?_
    simp only [List.mem_append, List.mem_cons] at h ⊢
    grind
  | wrapped c f =>
    refine ⟨by simp, fun m => ?_⟩
    cases c <;> simp
  | flattened c before behind h =>
    refine ⟨by simp [h, or_imp, forall_and], fun m => ?_⟩
    cases c with
    | and => simp [or_imp, forall_and]
    | or => simp [or_and_right, exists_or]
  | distributed c f g k =>
    refine ⟨?_, fun m => ?_⟩
    · simp only [compiles_pair_iff]
      exact and_and_left
    · cases c with
      | and => simp [Combinator.other, and_or_left]
      | or => simp [Combinator.other, or_and_left]
  | @absorbed c f g h =>
    refine ⟨?_, fun m => ?_⟩
    · simp only [compiles_pair_iff, h, and_true, and_self]
    · cases c with
      | and => simpa [Combinator.other] using fun hf => .inl hf
      | or => simpa [Combinator.other] using fun hf _ => hf

/-- Around equivalent filters a filter compiles as before. -/
theorem compiles_withList (h : f.Compiles → g.Compiles) (node : RawFilter) (c : Combinator)
    (before behind : List RawFilter) (hf : (node.withList c (before ++ f :: behind)).Compiles) :
    (node.withList c (before ++ g :: behind)).Compiles := by
  obtain ⟨hsound, hchildren⟩ := compiles_iff.1 hf
  refine compiles_iff.2 ⟨hsound.withList (by simp), fun d gs hgs k hk => ?_⟩
  rw [list?_withList] at hgs
  by_cases hd : d = c
  · subst hd
    rw [if_pos rfl] at hgs
    cases hgs
    have hall := hchildren d _ (by rw [list?_withList, if_pos rfl])
    rw [List.forall_mem_append, List.forall_mem_cons] at hall
    obtain ⟨hbefore, hf, hbehind⟩ := hall
    rcases List.mem_append.1 hk with hk | hk
    · exact hbefore k hk
    · rcases List.mem_cons.1 hk with rfl | hk
      · exact h hf
      · exact hbehind k hk
  · refine hchildren d gs ?_ k hk
    rw [list?_withList, if_neg hd]
    rwa [if_neg hd] at hgs

theorem admits_withList (h : f.Admits m ↔ g.Admits m) (node : RawFilter) (c : Combinator)
    (before behind : List RawFilter) : (node.withList c (before ++ f :: behind)).Admits m ↔
      (node.withList c (before ++ g :: behind)).Admits m := by
  have hall : AllAdmit m (before ++ f :: behind) ↔ AllAdmit m (before ++ g :: behind) := by
    simp only [allAdmit_iff, List.forall_mem_append, List.forall_mem_cons, h]
  have hsome : SomeAdmits m (before ++ f :: behind) ↔ SomeAdmits m (before ++ g :: behind) := by
    simp [someAdmits_iff, or_and_right, exists_or, h]
  obtain ⟨and?, or?, operator?, _, _⟩ := node
  cases c with
  | and => cases or? <;> cases operator? <;> simp [withList, Admits, hall]
  | or => cases and? <;> cases operator? <;> simp [withList, Admits, hsome]

/-- Laws are kept by whatever stands around the place where they are applied. -/
theorem of_exchanged (h : Exchanged Law f g) : Equivalent f g := by
  induction h with
  | here h => exact of_law h
  | inside h node c before behind ih =>
    refine ⟨⟨?_, ?_⟩, fun m => admits_withList (ih.admits m) node c before behind⟩
    · exact compiles_withList ih.compiles.1 node c before behind
    · exact compiles_withList ih.compiles.2 node c before behind

theorem of_eqvGen (h : Relation.EqvGen (Exchanged Law) f g) : Equivalent f g := by
  induction h with
  | rel f g h => exact of_exchanged h
  | refl f => exact ⟨.rfl, fun _ => .rfl⟩
  | symm f g h ih => exact ⟨ih.compiles.symm, fun m => (ih.admits m).symm⟩
  | trans f g k hfg hgk ihfg ihgk =>
    exact ⟨ihfg.compiles.trans ihgk.compiles, fun m => (ihfg.admits m).trans (ihgk.admits m)⟩

end Equivalent

theorem holds_iff_admits {p : Predicate} (h : f.compile = .ok p) :
    p.holds m = true ↔ f.Admits m := by
  obtain ⟨node, hnode, hp⟩ := bind_eq_ok_iff.1 h
  exact holds_iff (mapError_eq_ok_iff.1 hnode) hp

/-- Two compilations of which both succeed or both fail, and that find the same in every log. -/
def SameAnswers (x y : Except FilterError Predicate) : Prop :=
  ((∃ p, x = .ok p) ↔ ∃ q, y = .ok q) ∧
    ∀ p q, x = .ok p → y = .ok q → ∀ l : Log, l.query p = l.query q

theorem Equivalent.sameAnswers (h : Equivalent f g) : SameAnswers f.compile g.compile := by
  refine ⟨h.compiles, fun p q hp hq l => List.filter_congr fun m _ => ?_⟩
  rw [Bool.eq_iff_iff, holds_iff_admits hp, holds_iff_admits hq, h.admits m]

theorem compile_raw (f : Filter) : f.raw.compile = f.compile := by
  rw [compile, f.check_raw .root]
  rfl

/-- The laws may be applied as often as one likes, at any depth and in both directions: the filter
compiles as before or fails as before, be it in wire form or checked, and a query with it finds the
same messages in the same order. -/
theorem laws_keep_answers :
    (∀ f g : RawFilter, Relation.EqvGen (Exchanged Law) f g → SameAnswers f.compile g.compile) ∧
    ∀ f g : Filter, Relation.EqvGen (Exchanged Law) f.raw g.raw →
      SameAnswers f.compile g.compile := by
  refine ⟨fun f g h => (Equivalent.of_eqvGen h).sameAnswers, fun f g h => ?_⟩
  rw [← compile_raw f, ← compile_raw g]
  exact (Equivalent.of_eqvGen h).sameAnswers

/-- What alice wrote about something or to a channel, and all that is private: the author is
distributed, and the alternatives become children of the root. -/
theorem laws_keep_answers_flat :
    let author := Filter.single "author" (.string Sample.alice)
    let intro := Filter.single "channel" (.string "intro")
    let about := Filter.single "about" (.string Sample.alice)
    let hidden := Filter.bare "isPrivate"
    let f := Filter.or [.and [author, .or [intro, about]], hidden]
    let g := Filter.or [.and [author, intro], .and [author, about], hidden]
    Relation.EqvGen (Exchanged Law) f.raw g.raw ∧ ∃ p q, f.compile = .ok p ∧ g.compile = .ok q ∧
      Sample.mixed.query p = Sample.mixed.query q ∧
      (Sample.mixed.query q).map Message.key =
        ["%@alice.ed25519-1", "%@alice.ed25519-3", "%@alice.ed25519-4"] := by
  intro author intro about hidden f g
  have hdistributed : Law (combine .and [author.raw, combine .or [intro.raw, about.raw]])
      (combine .or [combine .and [author.raw, intro.raw], combine .and [author.raw, about.raw]]) :=
    .distributed .and author.raw intro.raw about.raw
  have hflattened : Law (combine .or ([] ++ combine .or [combine .and [author.raw, intro.raw],
      combine .and [author.raw, about.raw]] :: [hidden.raw])) g.raw :=
    .flattened .or [] [hidden.raw] (List.cons_ne_nil _ _)
  have h : Relation.EqvGen (Exchanged Law) f.raw g.raw :=
    .trans _ _ _ (.rel _ _ (.inside (.here hdistributed) default .or [] [hidden.raw]))
      (.rel _ _ (.here hflattened))
  exact ⟨h, _, _, rfl, rfl, (laws_keep_answers.2 f g h).2 _ _ rfl rfl _, by decide +kernel⟩

end RawFilter

end FeedQuery
