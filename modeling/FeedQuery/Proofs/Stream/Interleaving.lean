import FeedQuery.Proofs.Stream.Reader
import FeedQuery.Sample
import Mathlib.Data.List.Induction

/-!
Readers and appends in any order on one store that never fails of itself. However they interleave,
a reader misses nothing and is given nothing twice, and ends with what a query would have answered
at its last fetch.
-/
namespace FeedQuery

/-- A store and its readers. -/
structure System where
  store : Store
  readers : List Reader

/-- What can happen next. -/
inductive Event where
  | append (m : Message)
  | start (p : Predicate) (size : PageSize)
  | poll (reader : Nat)

namespace System

def step (s : System) : Event → System
  | .append m => ⟨s.store.append m, s.readers⟩
  | .start p size => ⟨s.store, s.readers ++ [.start p size]⟩
  | .poll i => match s.readers[i]? with
    | none => s
    | some r => ⟨(r.poll s.store).2, s.readers.set i (r.poll s.store).1⟩

/-- What is there after some events on a log without readers. -/
def run (l : Log) (es : List Event) : System := es.foldl step ⟨.ofLog l, []⟩

/-- The messages that were appended. -/
def appended (es : List Event) : List Message :=
  es.filterMap fun
    | .append m => some m
    | _ => none

/-- What readers were started with. -/
def started (es : List Event) : List (Predicate × PageSize) :=
  es.filterMap fun
    | .start p size => some (p, size)
    | _ => none

/-- Whether a reader makes a fetch when it is asked for its next page. -/
def Fetches (s : System) (i : Nat) : Prop :=
  (s.step (.poll i)).store.fetches = s.store.fetches + 1

/-- A reader makes its last fetch among some events at one of them. -/
structure LastFetch (l : Log) (es : List Event) (i n : Nat) : Prop where
  poll : es[n]? = some (.poll i)
  fetches : (run l (es.take n)).Fetches i
  last : ∀ m, n < m → es[m]? = some (.poll i) → ¬ (run l (es.take m)).Fetches i

variable {l : Log} {es : List Event} {e : Event} {s : System} {r : Reader} {i n place : Nat}

@[simp] theorem run_concat (l : Log) (es : List Event) (e : Event) :
    run l (es ++ [e]) = (run l es).step e := by
  rw [run, List.foldl_append]
  rfl

theorem step_poll_of_some (h : s.readers[i]? = some r) : s.step (.poll i) =
    ⟨(r.poll s.store).2, s.readers.set i (r.poll s.store).1⟩ := by
  rw [step, h]

theorem step_poll_of_none (h : s.readers[i]? = none) : s.step (.poll i) = s := by
  rw [step, h]

theorem readers_step_poll_self (h : s.readers[i]? = some r) :
    (s.step (.poll i)).readers[i]? = some (r.poll s.store).1 := by
  obtain ⟨hi, -⟩ := List.getElem?_eq_some_iff.1 h
  rw [step_poll_of_some h, List.getElem?_set_self hi]

theorem readers_step_poll_of_ne {j : Nat} (hij : j ≠ i) :
    (s.step (.poll j)).readers[i]? = s.readers[i]? := by
  cases hr : s.readers[j]? with
  | none => rw [step_poll_of_none hr]
  | some r => rw [step_poll_of_some hr, List.getElem?_set_ne hij]

theorem log_step_poll (s : System) (i : Nat) : (s.step (.poll i)).store.log = s.store.log := by
  cases hr : s.readers[i]? with
  | none => rw [step_poll_of_none hr]
  | some r => rw [step_poll_of_some hr, Reader.store_poll, PageStream.log_next]

theorem failAt?_run (l : Log) (es : List Event) : (run l es).store.failAt? = none := by
  induction es using List.reverseRecOn with
  | nil => rfl
  | append_singleton es e ih =>
    rw [run_concat]
    cases e with
    | append m => exact ih
    | start p size => exact ih
    | poll i =>
      cases hr : (run l es).readers[i]? with
      | none => rw [step_poll_of_none hr, ih]
      | some r => rw [step_poll_of_some hr, Reader.store_poll, PageStream.failAt?_next, ih]

/-- The log holds what it held at first, and behind it what was appended. -/
theorem messages_run (l : Log) (es : List Event) :
    (run l es).store.log.messages = l.messages ++ appended es := by
  induction es using List.reverseRecOn with
  | nil => exact (List.append_nil _).symm
  | append_singleton es e ih =>
    rw [run_concat, appended, List.filterMap_append]
    cases e with
    | append m =>
      rw [step, Store.append, Log.messages_append, ih, List.append_assoc]
      rfl
    | start p size =>
      rw [step, ih]
      exact congrArg _ (List.append_nil _).symm
    | poll i =>
      rw [log_step_poll, ih]
      exact congrArg _ (List.append_nil _).symm

/-- The readers are those that were started, each with its own predicate and page size. -/
theorem started_run (l : Log) (es : List Event) :
    (run l es).readers.map Reader.request = started es := by
  induction es using List.reverseRecOn with
  | nil => rfl
  | append_singleton es e ih =>
    rw [run_concat, started, List.filterMap_append]
    cases e with
    | append m => exact ih.trans (List.append_nil _).symm
    | start p size =>
      rw [step, List.map_append, ih]
      rfl
    | poll i =>
      cases hr : (run l es).readers[i]? with
      | none =>
        rw [step_poll_of_none hr, ih]
        exact (List.append_nil _).symm
      | some r =>
        obtain ⟨hi, rfl⟩ := List.getElem?_eq_some_iff.1 hr
        rw [step_poll_of_some hr, List.map_set, Reader.request_poll, ← List.map_set,
          List.set_getElem_self, ih]
        exact (List.append_nil _).symm

/-- A reader makes a fetch as long as it has a cursor. -/
theorem fetches_iff (h : s.readers[i]? = some r) : s.Fetches i ↔ r.stream.cursor? ≠ none := by
  rw [Fetches, step_poll_of_some h, Reader.store_poll]
  cases hc : r.stream.cursor? with
  | none => simp [PageStream.next_of_none hc]
  | some cursor => simp [PageStream.store_next_of_some hc]

theorem LastFetch.lt_length (h : LastFetch l es i n) : n < es.length :=
  (List.getElem?_eq_some_iff.1 h.poll).1

theorem LastFetch.take_concat (h : LastFetch l es i n) (e : Event) :
    (es ++ [e]).take n = es.take n :=
  List.take_append_of_le_length (Nat.le_of_lt h.lt_length)

/-- A last fetch stays the last one when anything else happens than a fetch of the reader. -/
theorem LastFetch.concat (h : LastFetch l es i n)
    (he : e = .poll i → ¬ (run l es).Fetches i) : LastFetch l (es ++ [e]) i n := by
  refine ⟨?_, ?_, ?_⟩
  · rw [List.getElem?_append_left h.lt_length]
    exact h.poll
  · rw [h.take_concat]
    exact h.fetches
  · intro m hm hpoll
    obtain ⟨hlt, -⟩ := List.getElem?_eq_some_iff.1 hpoll
    rw [List.length_append, List.length_singleton] at hlt
    rw [List.take_append_of_le_length (by omega)]
    by_cases hend : m < es.length
    · rw [List.getElem?_append_left hend] at hpoll
      exact h.last m hm hpoll
    · have hm : m = es.length := by omega
      subst hm
      rw [List.getElem?_concat_length] at hpoll
      rw [List.take_length]
      exact he (Option.some.inj hpoll)

theorem lastFetch_concat (h : (run l es).Fetches i) :
    LastFetch l (es ++ [.poll i]) i es.length := by
  refine ⟨List.getElem?_concat_length, ?_, ?_⟩
  · rw [List.take_left']
    · exact h
    · rfl
  · intro m hm hpoll
    obtain ⟨hlt, -⟩ := List.getElem?_eq_some_iff.1 hpoll
    rw [List.length_append, List.length_singleton] at hlt
    omega

/-- A reader ends with what a query answers at the instant of its last fetch, at what was then the
end of the log. -/
def EndsWith (l : Log) (es : List Event) (i : Nat) (p : Predicate) (place : Nat)
    (rows : List Message) : Prop :=
  ∃ n, LastFetch l es i n ∧ place = (run l (es.take n)).store.log.length ∧
    rows = (run l (es.take n)).store.log.query p

theorem EndsWith.concat {p : Predicate} {rows : List Message}
    (h : EndsWith l es i p place rows) (he : e = .poll i → ¬ (run l es).Fetches i) :
    EndsWith l (es ++ [e]) i p place rows := by
  obtain ⟨n, hlast, hend⟩ := h
  refine ⟨n, hlast.concat he, ?_⟩
  rw [hlast.take_concat]
  exact hend

/-- Where a reader is after some events. -/
structure Tracks (l : Log) (es : List Event) (i : Nat) (r : Reader) (place : Nat) : Prop where
  follows : r.Follows (run l es).store.log place
  ended : r.stream.cursor? = none → EndsWith l es i r.stream.predicate place r.rows

/-- What others do leaves a reader where it is. -/
theorem Tracks.other (h : Tracks l es i r place) (he : e ≠ .poll i) :
    Tracks l (es ++ [e]) i r place := by
  constructor
  · rw [run_concat]
    cases e with
    | append m => exact h.follows.append m
    | start p size => exact h.follows
    | poll j =>
      rw [log_step_poll]
      exact h.follows
  · intro hc
    exact (h.ended hc).concat fun hpoll => absurd hpoll he

/-- A reader that asks for a page goes on, or stays where it ended. -/
theorem Tracks.poll (h : Tracks l es i r place) (hr : (run l es).readers[i]? = some r) :
    ∃ place', Tracks l (es ++ [.poll i]) i (r.poll (run l es).store).1 place' := by
  have hlog : (run l (es ++ [.poll i])).store.log = (run l es).store.log := by
    rw [run_concat, log_step_poll]
  cases hc : r.stream.cursor? with
  | none =>
    have hfollows := h.follows.poll_of_none hc (run l es).store
    have hno : ¬ (run l es).Fetches i := fun hf => (fetches_iff hr).1 hf hc
    rw [Reader.poll_of_none hc] at hfollows ⊢
    refine ⟨place, ?_, ?_⟩
    · rw [hlog]
      exact hfollows
    · intro _
      exact (h.ended hc).concat fun _ => hno
  | some cursor =>
    obtain ⟨page, hf⟩ := h.follows.fetch hc
    have hfollows := h.follows.poll_of_ok (failAt?_run l es) hc hf
    have hfetches : (run l es).Fetches i := by
      rw [fetches_iff hr, hc]
      exact nofun
    refine ⟨page.stop (run l es).store.log, ?_, ?_⟩
    · rw [hlog]
      exact hfollows
    · intro hnone
      refine ⟨es.length, lastFetch_concat hfetches, ?_⟩
      have hrows := hfollows.rows
      rw [Reader.poll_of_ok hc (failAt?_run l es) hf] at hnone hrows ⊢
      have hstop : page.stop (run l es).store.log = (run l es).store.log.length := by
        rw [Page.stop, show page.next? = none from hnone]
        rfl
      rw [hstop, Log.matchesBefore_length] at hrows
      rw [List.take_left]
      exact ⟨hstop, hrows⟩

/-- Every reader is tracked through every run. -/
theorem exists_tracks (l : Log) (es : List Event) :
    ∀ {i r}, (run l es).readers[i]? = some r → ∃ place, Tracks l es i r place := by
  -- On the last event: it is the reader's own start or poll, or it leaves the reader alone.
  induction es using List.reverseRecOn with
  | nil =>
    intro i r hr
    cases hr
  | append_singleton es e ih =>
    intro i r hr
    rw [run_concat] at hr
    cases e with
    | append m =>
      obtain ⟨place, h⟩ := ih hr
      exact ⟨place, h.other nofun⟩
    | start p size =>
      rw [step] at hr
      by_cases hi : i < (run l es).readers.length
      · rw [List.getElem?_append_left hi] at hr
        obtain ⟨place, h⟩ := ih hr
        exact ⟨place, h.other nofun⟩
      · rw [List.getElem?_append_right (Nat.le_of_not_lt hi), List.getElem?_singleton] at hr
        split at hr
        · cases hr
          refine ⟨0, Reader.follows_start p size _, ?_⟩
          intro hc
          cases hc
        · cases hr
    | poll j =>
      by_cases hij : j = i
      · subst hij
        cases hr₀ : (run l es).readers[j]? with
        | none =>
          rw [step_poll_of_none hr₀, hr₀] at hr
          cases hr
        | some r₀ =>
          obtain ⟨place, h⟩ := ih hr₀
          rw [readers_step_poll_self hr₀] at hr
          cases hr
          exact h.poll hr₀
      · rw [readers_step_poll_of_ne hij] at hr
        obtain ⟨place, h⟩ := ih hr
        refine ⟨place, h.other ?_⟩
        intro h
        cases h
        exact hij rfl

/-- Appends and the fetches of any readers interleave on a log in any order. No fetch of a reader
fails; what it has is what matches before its place in the log as it is now; when it has ended, that
is what a query answers at the instant of its last fetch: everything appended before it is looked
at, and nothing appended after it; and left alone it ends as the drain of its stream. -/
theorem readers_agree_with_log {l : Log} {es : List Event} {i : Nat} {r : Reader}
    (hr : (run l es).readers[i]? = some r) :
    (started es)[i]? = some r.request ∧
    (∀ n, (run l (es.take n)).store.log.messages = l.messages ++ appended (es.take n)) ∧
    (∀ e, (r.stream.next (run l es).store).1 ≠ .failed e) ∧
    (r.outcome? = none → ∃ k t pages, r.polls k (run l es).store =
      (⟨t, pages, some ((r.stream.drain (run l es).store).1.map (r.rows ++ ·))⟩,
        (r.stream.drain (run l es).store).2)) ∧
    ∃ place, r.Follows (run l es).store.log place ∧
      (r.stream.cursor? = none → ∃ n, LastFetch l es i n ∧
        place = (run l (es.take n)).store.log.length ∧
        r.rows = (run l (es.take n)).store.log.query r.stream.predicate) := by
  obtain ⟨place, h⟩ := exists_tracks l es hr
  refine ⟨?_, ?_, h.follows.next_ne_failed (failAt?_run l es), ?_, place, h.follows, h.ended⟩
  · rw [← started_run l es, List.getElem?_map, hr]
    rfl
  · intro n
    exact messages_run l (es.take n)
  · intro ho
    exact Reader.exists_polls_eq_drain ho (run l es).store

/-- A reader of bob's messages, one a page: what is appended after the first page is read, what is
appended after the second one is not. -/
theorem readers_agree_with_log_regular :
    let m := Sample.regularMessage
    let p : Predicate := .condition (.text .author Sample.bob)
    let es : List Event := [.start p ⟨1, by decide⟩, .poll 0, .append (m 3), .poll 0,
      .append (m 5), .poll 0]
    let r : Reader := ⟨⟨p, ⟨1, by decide⟩, none⟩, [[m 1], [m 3]], some (.ok [m 1, m 3])⟩
    (run ⟨[m 1, m 2]⟩ es).readers[0]? = some r ∧ r.stream.cursor? = none ∧
      ∃ n, LastFetch ⟨[m 1, m 2]⟩ es 0 n ∧
        r.rows = (run ⟨[m 1, m 2]⟩ (es.take n)).store.log.query p := by
  intro m p es r
  have hr : (run ⟨[m 1, m 2]⟩ es).readers[0]? = some r := rfl
  obtain ⟨-, -, -, -, place, -, hended⟩ := readers_agree_with_log hr
  obtain ⟨n, hlast, -, hrows⟩ := hended rfl
  exact ⟨hr, rfl, n, hlast, hrows⟩

end System

end FeedQuery
