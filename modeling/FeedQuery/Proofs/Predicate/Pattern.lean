import FeedQuery.Log
import FeedQuery.Proofs.Filter.Congruence
import FeedQuery.Sample

/-!
Predicates with marked places. There is no negation, so whatever holds of more messages at the marks
makes the whole predicate hold of more: a query with it finds the same messages and perhaps others
between them.
-/
namespace FeedQuery

namespace Predicate

variable {p q : Predicate} {ps qs : List Predicate} {ms : List Message} {m : Message}

/-- Among given messages, those of which one predicate holds are some of those of which the other
holds. -/
def Within (ms : List Message) (p q : Predicate) : Prop :=
  ∀ m ∈ ms, p.holds m = true → q.holds m = true

theorem allHold_mono (h : List.Forall₂ (Within ms) ps qs) (hm : m ∈ ms)
    (hps : allHold m ps = true) : allHold m qs = true := by
  induction h with
  | nil => exact hps
  | cons head tail ih =>
    rw [allHold, Bool.and_eq_true] at hps ⊢
    exact ⟨head m hm hps.1, ih hps.2⟩

theorem anyHolds_mono (h : List.Forall₂ (Within ms) ps qs) (hm : m ∈ ms)
    (hps : anyHolds m ps = true) : anyHolds m qs = true := by
  induction h with
  | nil => exact hps
  | cons head tail ih =>
    rw [anyHolds, Bool.or_eq_true] at hps ⊢
    exact hps.imp (head m hm) ih

theorem congruence_within (ms : List Message) : Congruence (Within ms) where
  refl _ _ _ h := h
  combine c _ _ h m hm hps := by
    cases c with
    | and => exact allHold_mono h hm hps
    | or => exact anyHolds_mono h hm hps

/-- One more child leaves less to an `and`. -/
theorem within_of_and (before behind : List Predicate) (p : Predicate) :
    Within ms (.combine .and (before ++ p :: behind)) (.combine .and (before ++ behind)) := by
  intro m _ h
  simp only [holds, allHold_eq, List.all_append, List.all_cons, Bool.and_eq_true] at h ⊢
  exact ⟨h.1, h.2.2⟩

/-- One more child leaves more to an `or`. -/
theorem within_of_or (before behind : List Predicate) (p : Predicate) :
    Within ms (.combine .or (before ++ behind)) (.combine .or (before ++ p :: behind)) := by
  intro m _ h
  simp only [holds, anyHolds_eq, List.any_append, List.any_cons, Bool.or_eq_true] at h ⊢
  exact h.imp_right .inr

end Predicate

/-- A predicate with any number of marked places. -/
inductive Pattern where
  | mark
  | condition (c : Condition)
  | combine (c : Combinator) (children : List Pattern)

namespace Pattern

mutual

/-- The predicate that has another one in all the marked places. -/
def fill (p : Predicate) : Pattern → Predicate
  | .mark => p
  | .condition c => .condition c
  | .combine c ts => .combine c (fillAll p ts)

def fillAll (p : Predicate) : List Pattern → List Predicate
  | [] => []
  | t :: ts => t.fill p :: fillAll p ts

end

variable {R : Predicate → Predicate → Prop} {p q : Predicate}

mutual

/-- What is related in the marked places is so with anything around them. -/
theorem rel_fill (hR : Predicate.Congruence R) (h : R p q) :
    (t : Pattern) → R (t.fill p) (t.fill q)
  | .mark => h
  | .condition c => hR.refl (.condition c)
  | .combine c ts => hR.combine c (forall₂_fillAll hR h ts)

theorem forall₂_fillAll (hR : Predicate.Congruence R) (h : R p q) :
    (ts : List Pattern) → List.Forall₂ R (fillAll p ts) (fillAll q ts)
  | [] => .nil
  | t :: ts => .cons (rel_fill hR h t) (forall₂_fillAll hR h ts)

end

end Pattern

namespace Log

open Predicate

variable {l : Log} {p q : Predicate}

/-- A query that is narrower on the messages of a log leaves some of them out, and no more. -/
theorem query_sublist (h : Within l.messages p q) : (l.query p).Sublist (l.query q) := by
  have hnarrow : l.query p = (l.query q).filter fun m => p.holds m := by
    rw [query, query, List.filter_filter]
    apply List.filter_congr
    intro m hm
    rw [Bool.eq_iff_iff, Bool.and_eq_true]
    exact ⟨fun hp => ⟨hp, h m hm hp⟩, And.left⟩
  rw [hnarrow]
  exact List.filter_sublist

theorem query_fill_sublist (h : Within l.messages p q) (t : Pattern) :
    (l.query (t.fill p)).Sublist (l.query (t.fill q)) :=
  query_sublist (t.rel_fill (congruence_within l.messages) h)

/-- If all messages of a log of which one predicate holds are ones of which another holds, then with
the one in the marked places a query finds a subsequence of what it finds with the other there. If
the two hold of the same messages of the log, they may be exchanged. So one more child of an `and`
anywhere in a predicate takes nothing but messages away, and one more child of an `or` adds nothing
but messages. -/
theorem query_fill_monotone (l : Log) (t : Pattern) :
    (∀ p q : Predicate, (∀ m ∈ l.messages, p.holds m = true → q.holds m = true) →
      (l.query (t.fill p)).Sublist (l.query (t.fill q))) ∧
    (∀ p q : Predicate, (∀ m ∈ l.messages, p.holds m = q.holds m) →
      l.query (t.fill p) = l.query (t.fill q)) ∧
    (∀ before behind p,
      (l.query (t.fill (.combine .and (before ++ p :: behind)))).Sublist
        (l.query (t.fill (.combine .and (before ++ behind))))) ∧
    ∀ before behind p,
      (l.query (t.fill (.combine .or (before ++ behind)))).Sublist
        (l.query (t.fill (.combine .or (before ++ p :: behind)))) := by
  refine ⟨fun p q h => query_fill_sublist h t, fun p q h => ?_, ?_, ?_⟩
  · have hpq : Within l.messages p q := fun m hm hp => (h m hm).symm.trans hp
    have hqp : Within l.messages q p := fun m hm hq => (h m hm).trans hq
    exact (query_fill_sublist hpq t).antisymm (query_fill_sublist hqp t)
  · intro before behind p
    exact query_fill_sublist (within_of_and before behind p) t
  · intro before behind p
    exact query_fill_sublist (within_of_or before behind p) t

/-- Messages of alice and of bob, with what is asked of them marked twice: that they belong to a
thread, which in this log is the same as branching off its root, or that they do so, are votes or
stand in a channel. -/
theorem query_fill_monotone_mixed :
    let text (t : TextOperator) (s : String) : Predicate := .condition (.text t s)
    let t : Pattern := .combine .or [.combine .and [.mark, .condition (.text .author Sample.alice)],
      .combine .and [.mark, .condition (.text .author Sample.bob)]]
    let reply := text .hasRoot Sample.thread
    let branch := text .hasBranch Sample.thread
    let more : Predicate := .combine .or [reply, text .type "vote", text .channel "intro"]
    (Sample.mixed.query (t.fill reply)).Sublist (Sample.mixed.query (t.fill more)) ∧
    Sample.mixed.query (t.fill reply) = Sample.mixed.query (t.fill branch) ∧
    (Sample.mixed.query (t.fill reply)).map Message.key =
      ["%@alice.ed25519-2", "%@bob.ed25519-3"] ∧
    (Sample.mixed.query (t.fill more)).map Message.key =
      ["%@alice.ed25519-1", "%@alice.ed25519-2", "%@bob.ed25519-2", "%@bob.ed25519-3"] := by
  intro text t reply branch more
  obtain ⟨hnarrow, hsame, -, -⟩ := query_fill_monotone Sample.mixed t
  exact ⟨hnarrow reply more (by decide +kernel), hsame reply branch (by decide +kernel),
    by decide +kernel, by decide +kernel⟩

end Log

end FeedQuery
