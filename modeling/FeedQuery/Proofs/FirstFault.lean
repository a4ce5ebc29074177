/-!
The first element of a list with some property, and passes over a list that stop at the first
element with a fault.
-/
namespace FeedQuery

/-- The first element of a list with some property. -/
def IsFirst {α : Type} (P : α → Prop) (l : List α) (a : α) : Prop :=
  ∃ before behind, l = before ++ a :: behind ∧ P a ∧ ∀ b ∈ before, ¬ P b

namespace IsFirst

variable {α : Type} {P : α → Prop} {l m : List α} {a b : α}

theorem head (h : P a) : IsFirst P (a :: l) a := ⟨[], l, rfl, h, nofun⟩

theorem append_right (h : IsFirst P l a) (m : List α) : IsFirst P (l ++ m) a := by
  obtain ⟨before, behind, rfl, ha, hbefore⟩ := h
  exact ⟨before, behind ++ m, by simp, ha, hbefore⟩

theorem append_left (hl : ∀ b ∈ l, ¬ P b) (h : IsFirst P m a) : IsFirst P (l ++ m) a := by
  obtain ⟨before, behind, rfl, ha, hbefore⟩ := h
  refine ⟨l ++ before, behind, by simp, ha, ?_⟩
  intro b hb
  rcases List.mem_append.1 hb with hb | hb
  · exact hl b hb
  · exact hbefore b hb

theorem mem (h : IsFirst P l a) : a ∈ l := by
  obtain ⟨before, behind, rfl, -⟩ := h
  simp

theorem prop (h : IsFirst P l a) : P a := by
  obtain ⟨-, -, -, ha, -⟩ := h
  exact ha

theorem congr {Q : α → Prop} (h : IsFirst P l a) (hPQ : ∀ b ∈ l, P b ↔ Q b) : IsFirst Q l a := by
  obtain ⟨before, behind, rfl, ha, hbefore⟩ := h
  refine ⟨before, behind, rfl, (hPQ a (by simp)).1 ha, ?_⟩
  intro b hb hQ
  exact hbefore b hb ((hPQ b (by simp [hb])).2 hQ)

theorem unique (ha : IsFirst P l a) (hb : IsFirst P l b) : a = b := by
  obtain ⟨before, behind, rfl, hPa, hbefore⟩ := ha
  obtain ⟨before', behind', heq, hPb, hbefore'⟩ := hb
  rcases List.append_eq_append_iff.1 heq with ⟨mid, rfl, hmid⟩ | ⟨mid, rfl, hmid⟩
  · rcases mid with _ | ⟨c, mid⟩
    · exact (List.cons.inj hmid).1
    · obtain ⟨rfl, -⟩ := List.cons.inj hmid
      exact absurd hPa (hbefore' a (by simp))
  · rcases mid with _ | ⟨c, mid⟩
    · exact (List.cons.inj hmid).1.symm
    · obtain ⟨rfl, -⟩ := List.cons.inj hmid
      exact absurd hPb (hbefore b (by simp))

/-- The first element of a numbered list is numbered by what stands before it. -/
theorem zipIdx_iff {k n : Nat} : IsFirst (fun q => P q.1) (l.zipIdx n) (a, k) ↔
    ∃ before behind, l = before ++ a :: behind ∧ k = n + before.length ∧ P a ∧
      ∀ b ∈ before, ¬ P b := by
  constructor
  · rintro ⟨before, behind, heq, ha, hbefore⟩
    obtain ⟨first, rest, rfl, rfl, hrest⟩ := List.zipIdx_eq_append_iff.1 heq
    obtain ⟨b, behind', rfl, hpair, -⟩ := List.zipIdx_eq_cons_iff.1 hrest.symm
    cases hpair
    refine ⟨first, behind', rfl, rfl, ha, fun b hb => ?_⟩
    rw [← List.zipIdx_map_fst n first] at hb
    obtain ⟨q, hq, rfl⟩ := List.mem_map.1 hb
    exact hbefore q hq
  · rintro ⟨before, behind, rfl, rfl, ha, hbefore⟩
    refine ⟨before.zipIdx n, behind.zipIdx (n + before.length + 1), ?_, ha, ?_⟩
    · rw [List.zipIdx_append, List.zipIdx_cons]
    · rintro ⟨b, i⟩ hb
      exact hbefore b (List.fst_mem_of_mem_zipIdx hb)

end IsFirst

/-- What a pass over a list comes to that stops at the first element with a fault. -/
def ReportsFirst {ν ε α : Type} (Faulty : ν → ε → Prop) (l : List ν) : Except ε α → Prop
  | .ok _ => ∀ q ∈ l, ∀ e, ¬ Faulty q e
  | .error e => ∃ q, IsFirst (fun q => ∃ e, Faulty q e) l q ∧ Faulty q e

namespace ReportsFirst

variable {ν ε α β : Type} {Faulty : ν → ε → Prop} {l m : List ν} {q : ν} {e : ε} {x : Except ε α}

theorem of_ok {a : α} (h : ReportsFirst Faulty l (.ok a)) : ∀ q ∈ l, ∀ e, ¬ Faulty q e := h

theorem of_error (h : ReportsFirst Faulty l (.error e : Except ε α)) :
    ∃ q, IsFirst (fun q => ∃ e, Faulty q e) l q ∧ Faulty q e := h

theorem map (h : ReportsFirst Faulty l x) (f : α → β) : ReportsFirst Faulty l (x.map f) := by
  cases x with
  | ok a => exact h
  | error e => exact h

/-- A faulty element ends the pass. -/
theorem here (h : Faulty q e) : ReportsFirst Faulty (q :: l) (.error e : Except ε α) :=
  ⟨q, .head ⟨e, h⟩, h⟩

theorem append {f : α → Except ε β} (h : ReportsFirst Faulty l x)
    (hrest : ∀ a, x = .ok a → ReportsFirst Faulty m (f a)) :
    ReportsFirst Faulty (l ++ m) (x >>= f) := by
  cases x with
  | error e =>
    obtain ⟨q, hq, he⟩ := h
    exact ⟨q, hq.append_right m, he⟩
  | ok a =>
    have hnone : ∀ q ∈ l, ¬ ∃ e, Faulty q e := by
      rintro q hq ⟨e, he⟩
      exact h q hq e he
    have hm := hrest a rfl
    show ReportsFirst Faulty (l ++ m) (f a)
    cases hf : f a with
    | ok b =>
      rw [hf] at hm
      intro q hq
      rcases List.mem_append.1 hq with hq | hq
      · exact h q hq
      · exact hm q hq
    | error e =>
      rw [hf] at hm
      obtain ⟨q, hq, he⟩ := hm
      exact ⟨q, .append_left hnone hq, he⟩

/-- An element without a fault is passed over. -/
theorem cons (hq : ∀ e, ¬ Faulty q e) (h : ReportsFirst Faulty l x) :
    ReportsFirst Faulty (q :: l) x := by
  have hhead : ReportsFirst Faulty [q] (.ok () : Except ε Unit) := by
    intro r hr
    rw [List.mem_singleton.1 hr]
    exact hq
  exact hhead.append (f := fun _ => x) fun _ _ => h

theorem nil (a : α) : ReportsFirst Faulty [] (.ok a : Except ε α) := nofun

/-- The pass succeeds exactly if there is no fault. -/
theorem isOk_iff (h : ReportsFirst Faulty l x) :
    (∃ a, x = .ok a) ↔ ∀ q ∈ l, ¬ ∃ e, Faulty q e := by
  cases x with
  | ok a =>
    refine ⟨fun _ q hq => ?_, fun _ => ⟨a, rfl⟩⟩
    rintro ⟨e, he⟩
    exact h q hq e he
  | error e =>
    obtain ⟨q, hq, he⟩ := h
    constructor
    · rintro ⟨a, ha⟩
      cases ha
    · intro hnone
      exact absurd ⟨e, he⟩ (hnone q hq.mem)

/-- It fails as the first faulty element has it, if an element has one fault at most. -/
theorem eq_error_iff (h : ReportsFirst Faulty l x)
    (hunique : ∀ q e e', Faulty q e → Faulty q e' → e = e') :
    x = .error e ↔ ∃ q, IsFirst (fun q => ∃ e, Faulty q e) l q ∧ Faulty q e := by
  constructor
  · rintro rfl
    exact h
  · rintro ⟨q, hq, he⟩
    cases x with
    | ok a => exact absurd he (h q hq.mem e)
    | error e' =>
      obtain ⟨q', hq', he'⟩ := h
      have hsame := hq.unique hq'
      subst hsame
      rw [hunique q e e' he he']

variable {Numbered : α × Nat → ε → Prop} {Sound : α → Prop} {as : List α} {n : Nat} {y : Except ε β}

/-- A pass over numbered elements succeeds exactly if they are all sound. -/
theorem isOk_iff_sound (h : ReportsFirst Numbered (as.zipIdx n) y)
    (hsound : ∀ q, (∃ e, Numbered q e) ↔ ¬ Sound q.1) :
    (∃ b, y = .ok b) ↔ ∀ a ∈ as, Sound a := by
  rw [h.isOk_iff]
  simp only [hsound, Classical.not_not]
  rw [← List.forall_mem_map (f := Prod.fst), List.zipIdx_map_fst]

/-- It fails as the first one has it that is not sound, with its number. -/
theorem eq_error_iff_numbered (h : ReportsFirst Numbered (as.zipIdx n) y)
    (hsound : ∀ q, (∃ e, Numbered q e) ↔ ¬ Sound q.1)
    (hunique : ∀ q e e', Numbered q e → Numbered q e' → e = e') :
    y = .error e ↔ ∃ before a behind, as = before ++ a :: behind ∧ (∀ b ∈ before, Sound b) ∧
      Numbered (a, n + before.length) e := by
  rw [h.eq_error_iff hunique]
  have hnumber := fun a k => IsFirst.zipIdx_iff (P := fun a => ¬ Sound a)
    (l := as) (a := a) (k := k) (n := n)
  simp only [Classical.not_not] at hnumber
  constructor
  · rintro ⟨⟨a, k⟩, hfirst, he⟩
    have ha := hfirst.congr fun q _ => hsound q
    obtain ⟨before, behind, has, rfl, -, hbefore⟩ := (hnumber a k).1 ha
    exact ⟨before, a, behind, has, hbefore, he⟩
  · rintro ⟨before, a, behind, has, hbefore, he⟩
    have hnot : ¬ Sound a := (hsound _).1 ⟨e, he⟩
    have hfirst := (hnumber a _).2 ⟨before, behind, has, rfl, hnot, hbefore⟩
    exact ⟨_, hfirst.congr fun q _ => (hsound q).symm, he⟩

end ReportsFirst

-- Lean would try to run a pass in order to unfold what it reports.
attribute [irreducible] ReportsFirst

end FeedQuery
