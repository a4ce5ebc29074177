import FeedQuery.Proofs.Store.Faults
import FeedQuery.Sample
import FeedQuery.Session

/-!
A client of one store: queries at once and page by page, single fetches, and streams polled in any
order. The fetches of all of them are counted together, and the one that fails is surfaced by the
operation that makes it.
-/
namespace FeedQuery

/-- A store and the streams opened on it. -/
structure Client where
  store : Store
  streams : List OpenStream

/-- What a client does next. A stream is named by the number of those opened before it. -/
inductive Operation where
  | query (p : Predicate)
  | paginate (p : Predicate) (size : PageSize)
  | fetch (p : Predicate) (size : PageSize) (cursor : Cursor)
  | openPages (p : Predicate) (size : PageSize)
  | openRecords (p : Predicate) (size : PageSize)
  | poll (stream : Nat)

namespace OpenStream

/-- Asks a stream for its next item. -/
def next (stream : OpenStream) (store : Store) : (Reply × OpenStream) × Store :=
  match stream with
  | .pages s =>
    let (answer, s, store) := s.next store
    ((Session.ofPoll .nextPage answer, .pages s), store)
  | .records s =>
    let (answer, s, store) := s.next store
    ((Session.ofPoll .nextRecord answer, .records s), store)

/-- The stream with nothing left. -/
def ended : OpenStream → OpenStream
  | .pages s => .pages (s.seek none)
  | .records s => .records ⟨s.pages.seek none, []⟩

theorem oneFault_next (stream : OpenStream) (store : Store) :
    Store.OneFault (fun e => (.failed (.store e), stream.ended)) store (stream.next store)
      (stream.next store.plain) := by
  cases stream with
  | pages s =>
    exact (s.oneFault_next store).map fun x => (Session.ofPoll .nextPage x.1, OpenStream.pages x.2)
  | records s =>
    exact (s.oneFault_next store).map fun x => (Session.ofPoll .nextRecord x.1, OpenStream.records x.2)

/-- A stream that has failed gives nothing more and makes no fetch. -/
theorem next_of_failed {stream stream' : OpenStream} {store store' : Store} {e : StoreError}
    (h : stream.next store = ((.failed (.store e), stream'), store')) (store'' : Store) :
    stream'.next store'' = ((.done, stream'), store'') := by
  cases stream with
  | pages s =>
    rcases hnext : s.next store with ⟨rows | _ | e', t, store₁⟩
    · simp [next, hnext, Session.ofPoll] at h
    · simp [next, hnext, Session.ofPoll] at h
    · simp only [next, hnext, Prod.mk.injEq] at h
      obtain ⟨⟨-, rfl⟩, -⟩ := h
      rw [next, PageStream.next_of_none (PageStream.cursor?_of_failed hnext)]
      rfl
  | records s =>
    rcases hnext : s.next store with ⟨m | _ | e', t, store₁⟩
    · simp [next, hnext, Session.ofPoll] at h
    · simp [next, hnext, Session.ofPoll] at h
    · simp only [next, hnext, Prod.mk.injEq] at h
      obtain ⟨⟨-, rfl⟩, -⟩ := h
      obtain ⟨hc, hb⟩ := RecordStream.ended_of_failed hnext
      rw [next, RecordStream.next_of_ended hc hb]
      rfl

end OpenStream

namespace Client

def plain (c : Client) : Client := ⟨c.store.plain, c.streams⟩

/-- A run on the store alone. -/
def onStore (c : Client) (run : Store → Reply × Store) : Reply × Client :=
  let (reply, store) := run c.store
  (reply, ⟨store, c.streams⟩)

def perform (c : Client) : Operation → Reply × Client
  | .query p => c.onStore (Session.executeReply p none)
  | .paginate p size => c.onStore (Session.executeReply p (some size))
  | .fetch p size cursor => c.onStore (Session.fetchReply p size cursor)
  | .openPages p size =>
    (.opened (c.streams.length + 1), ⟨c.store, c.streams ++ [.pages (.start p size)]⟩)
  | .openRecords p size =>
    (.opened (c.streams.length + 1), ⟨c.store, c.streams ++ [.records (.start p size)]⟩)
  | .poll i => match c.streams[i]? with
    | none => (.failed .unknownStream, c)
    | some stream =>
      let ((reply, stream), store) := stream.next c.store
      (reply, ⟨store, c.streams.set i stream⟩)

/-- What is left after some operations. -/
def after (c : Client) (ops : List Operation) : Client := ops.foldl (fun c op => (c.perform op).2) c

/-- A reply and the streams, apart from the store. -/
def outcome (x : Reply × Client) : (Reply × List OpenStream) × Store :=
  ((x.1, x.2.streams), x.2.store)

end Client

namespace Client

/-- A reply to a fetch. -/
def ofFetched : Except StoreError Page → Reply
  | .ok page => .page page
  | .error e => .failed (.store e)

theorem outcome_perform_fetch (c : Client) (p : Predicate) (size : PageSize) (cursor : Cursor) :
    outcome (c.perform (.fetch p size cursor)) =
      ((ofFetched (c.store.fetch p size cursor).1, c.streams),
        (c.store.fetch p size cursor).2) := by
  simp only [outcome, perform, onStore, Session.fetchReply]
  rcases c.store.fetch p size cursor with ⟨_ | _, _⟩ <;> rfl

theorem perform_poll_of_none {c : Client} {i : Nat} (h : c.streams[i]? = none) :
    c.perform (.poll i) = (.failed .unknownStream, c) := by
  rw [perform, h]

theorem perform_poll_of_some {c : Client} {i : Nat} {stream : OpenStream}
    (h : c.streams[i]? = some stream) : c.perform (.poll i) = ((stream.next c.store).1.1,
      ⟨(stream.next c.store).2, c.streams.set i (stream.next c.store).1.2⟩) := by
  rw [perform, h]

end Client

/-- What an operation comes to one of whose fetches fails: only a stream that was polled is
changed, which has ended. -/
def Operation.fault (op : Operation) (streams : List OpenStream) (e : StoreError) :
    Reply × List OpenStream :=
  match op with
  | .paginate _ _ => (.failed (.query (.store e)), streams)
  | .poll i => match streams[i]? with
    | none => (.failed .unknownStream, streams)
    | some stream => (.failed (.store e), streams.set i stream.ended)
  | _ => (.failed (.store e), streams)

namespace Client

theorem oneFault_perform (c : Client) (op : Operation) :
    Store.OneFault (op.fault c.streams) c.store (outcome (c.perform op))
      (outcome (c.plain.perform op)) := by
  cases op with
  | query p =>
    exact .of_fetches_eq rfl rfl (List.suffix_cons _ _)
      (Store.fetches_record_query c.store.plain p) rfl
  | paginate p size =>
    exact (PageStream.oneFault_drain (.start p size) c.store).map fun rows =>
      (Session.ofRows ((rows.mapError QueryError.store).mapError Failure.query), c.streams)
  | fetch p size cursor =>
    rw [outcome_perform_fetch, outcome_perform_fetch]
    exact (Store.oneFault_fetch c.store p size cursor).map fun x => (ofFetched x, c.streams)
  | openPages p size => exact .of_fetches_eq rfl rfl (List.suffix_refl _) rfl rfl
  | openRecords p size => exact .of_fetches_eq rfl rfl (List.suffix_refl _) rfl rfl
  | poll i =>
    cases hs : c.streams[i]? with
    | none =>
      have hplain : c.plain.streams[i]? = none := hs
      rw [perform_poll_of_none hs, perform_poll_of_none hplain]
      exact .of_fetches_eq rfl rfl (List.suffix_refl _) rfl rfl
    | some stream =>
      have hplain : c.plain.streams[i]? = some stream := hs
      have hfault : (Operation.poll i).fault c.streams =
          fun e => (.failed (.store e), c.streams.set i stream.ended) := by
        funext e
        rw [Operation.fault, hs]
      rw [perform_poll_of_some hs, perform_poll_of_some hplain, hfault]
      exact (stream.oneFault_next c.store).map fun x => (x.1, c.streams.set i x.2)

theorem log_perform (c : Client) (op : Operation) : (c.perform op).2.store.log = c.store.log :=
  (c.oneFault_perform op).log_run

theorem failAt?_perform (c : Client) (op : Operation) :
    (c.perform op).2.store.failAt? = c.store.failAt? := (c.oneFault_perform op).failAt?_run

theorem log_after (c : Client) (ops : List Operation) :
    (c.after ops).store.log = c.store.log := by
  induction ops generalizing c with
  | nil => rfl
  | cons op ops ih => exact (ih (c.perform op).2).trans (c.log_perform op)

theorem failAt?_after (c : Client) (ops : List Operation) :
    (c.after ops).store.failAt? = c.store.failAt? := by
  induction ops generalizing c with
  | nil => rfl
  | cons op ops ih => exact (ih (c.perform op).2).trans (c.failAt?_perform op)

/-- A stream that gives nothing more and makes no fetch. -/
def HasEnded (c : Client) (i : Nat) : Prop :=
  ∃ stream, c.streams[i]? = some stream ∧ ∀ store, stream.next store = ((.done, stream), store)

variable {c : Client} {i : Nat}

theorem HasEnded.poll (h : c.HasEnded i) : c.perform (.poll i) = (.done, c) := by
  obtain ⟨stream, hs, hnext⟩ := h
  obtain ⟨hi, rfl⟩ := List.getElem?_eq_some_iff.1 hs
  rw [perform_poll_of_some hs, hnext, List.set_getElem_self]

theorem HasEnded.perform (h : c.HasEnded i) (op : Operation) : (c.perform op).2.HasEnded i := by
  obtain ⟨stream, hs, hnext⟩ := h
  obtain ⟨hi, -⟩ := List.getElem?_eq_some_iff.1 hs
  cases op with
  | query p => exact ⟨stream, hs, hnext⟩
  | paginate p size => exact ⟨stream, hs, hnext⟩
  | fetch p size cursor => exact ⟨stream, hs, hnext⟩
  | openPages p size => exact ⟨stream, (List.getElem?_append_left hi).trans hs, hnext⟩
  | openRecords p size => exact ⟨stream, (List.getElem?_append_left hi).trans hs, hnext⟩
  | poll j =>
    by_cases hij : j = i
    · subst hij
      rw [HasEnded.poll ⟨stream, hs, hnext⟩]
      exact ⟨stream, hs, hnext⟩
    · cases hj : c.streams[j]? with
      | none =>
        rw [perform_poll_of_none hj]
        exact ⟨stream, hs, hnext⟩
      | some other =>
        rw [perform_poll_of_some hj]
        exact ⟨stream, (List.getElem?_set_ne hij).trans hs, hnext⟩

theorem HasEnded.after (h : c.HasEnded i) (ops : List Operation) : (c.after ops).HasEnded i := by
  induction ops generalizing c with
  | nil => exact h
  | cons op ops ih => exact ih (h.perform op)

/-- A stream ends with its first failure. -/
theorem hasEnded_of_failed {e : StoreError} (h : (c.perform (.poll i)).1 = .failed (.store e)) :
    (c.perform (.poll i)).2.HasEnded i := by
  cases hs : c.streams[i]? with
  | none =>
    rw [perform_poll_of_none hs] at h
    cases h
  | some stream =>
    obtain ⟨hi, -⟩ := List.getElem?_eq_some_iff.1 hs
    rw [perform_poll_of_some hs] at h ⊢
    refine ⟨(stream.next c.store).1.2, List.getElem?_set_self hi, ?_⟩
    intro store
    have hnext : stream.next c.store =
        ((.failed (.store e), (stream.next c.store).1.2), (stream.next c.store).2) := by
      rw [← h]
    exact OpenStream.next_of_failed hnext store

/-- How a paginated query ends on a store that may fail one of its fetches. -/
structure AllOrNothing (c : Client) (p : Predicate) (size : PageSize) : Prop where
  /-- Without the fault it gives all matches, with a fetch for each page. -/
  plain : (c.plain.perform (.paginate p size)).1 = .messages (c.store.log.query p) ∧
    (c.plain.perform (.paginate p size)).2.store.fetches =
      c.store.fetches + (c.store.log.pages p size).length
  /-- With the fault before or behind these fetches it does the same. -/
  spared : (∀ k, c.store.failAt? = some k → k < c.store.fetches ∨
      c.store.fetches + (c.store.log.pages p size).length ≤ k) →
    (c.perform (.paginate p size)).1 = .messages (c.store.log.query p) ∧
      (c.perform (.paginate p size)).2.store.fetches =
        c.store.fetches + (c.store.log.pages p size).length
  /-- With the fault among them it gives no rows, only the failure at the cursor of its page. -/
  hit : ∀ k, c.store.failAt? = some k → c.store.fetches ≤ k →
    k < c.store.fetches + (c.store.log.pages p size).length →
    ∃ q, (c.store.log.pages p size)[k - c.store.fetches]? = some q ∧
      (c.perform (.paginate p size)).1 =
        .failed (.query (.store (.fetch q.1 "connection reset"))) ∧
      (c.perform (.paginate p size)).2.store.fetches = k + 1 ∧
      Log.rowsOf ((c.store.log.pages p size).take (k - c.store.fetches)) ++
        c.store.log.matchesFrom p q.1.position = c.store.log.query p

theorem reply_paginate_of_run {p : Predicate} {size : PageSize}
    {rows : Except StoreError (List Message)} {store : Store}
    (h : c.store.run p (some size) = (rows, store)) : c.perform (.paginate p size) =
      (Session.ofRows ((rows.mapError QueryError.store).mapError Failure.query),
        ⟨store, c.streams⟩) := by
  simp only [perform, onStore, Session.executeReply, Session.queryReply, h]

theorem paginate_of_spares {p : Predicate} {size : PageSize}
    (h : c.store.Spares (c.store.log.pages p size).length) :
    (c.perform (.paginate p size)).1 = .messages (c.store.log.query p) ∧
      (c.perform (.paginate p size)).2.store.fetches =
        c.store.fetches + (c.store.log.pages p size).length := by
  rw [reply_paginate_of_run (Store.run_of_spares h), Store.fetches_recordFetches, List.length_map]
  exact ⟨rfl, rfl⟩

theorem allOrNothing (c : Client) (p : Predicate) (size : PageSize) : c.AllOrNothing p size where
  plain := paginate_of_spares (c := c.plain) (Store.spares_of_failAt?_eq_none rfl _)
  spared := paginate_of_spares
  hit := by
    intro k hk hle hlt
    have hj : k - c.store.fetches < (c.store.log.pages p size).length := by omega
    have hsome := List.getElem?_eq_getElem hj
    have hfault : c.store.failAt? = some (c.store.fetches + (k - c.store.fetches)) := by
      rw [hk, Option.some.injEq]
      omega
    refine ⟨_, hsome, ?_, ?_, Log.rowsOf_take_append_matchesFrom hsome⟩
    · rw [reply_paginate_of_run (Store.run_of_fault hfault hsome)]
      rfl
    · rw [reply_paginate_of_run (Store.run_of_fault hfault hsome), Store.fetches_recordFetches,
        List.length_map, List.length_take]
      omega

/-- On a store that fails one fetch, operations in any order: each does what it does without the
fault, unless the fetch with that number is one of its own, which fails and is its last. Queries at
once are not counted, a paginated query is answered in full or not at all, and a stream that has
failed gives nothing more. -/
theorem one_fetch_fails (l : Log) (k? : Option Nat) (ops : List Operation) :
    let c := (⟨⟨l, k?, []⟩, []⟩ : Client).after ops
    c.store.log = l ∧ c.store.failAt? = k? ∧
    (∀ op, Store.OneFault (op.fault c.streams) c.store (outcome (c.perform op))
      (outcome (c.plain.perform op))) ∧
    (∀ p, (c.perform (.query p)).1 = .messages (l.query p) ∧
      (c.perform (.query p)).2.store.fetches = c.store.fetches) ∧
    (∀ p size, c.AllOrNothing p size) ∧
    ∀ i e, (c.perform (.poll i)).1 = .failed (.store e) → ∀ later,
      let d := (c.perform (.poll i)).2.after later
      d.perform (.poll i) = (.done, d) := by
  intro c
  have hlog : c.store.log = l := log_after _ ops
  refine ⟨hlog, failAt?_after _ ops, c.oneFault_perform, ?_, c.allOrNothing, ?_⟩
  · intro p
    refine ⟨?_, Store.fetches_record_query c.store p⟩
    rw [← hlog]
    rfl
  · intro i e he later
    exact ((hasEnded_of_failed he).after later).poll

/-- The third fetch fails, which is the second one of a paginated query after a poll. -/
theorem one_fetch_fails_regular :
    let m := Sample.regularMessage
    let p : Predicate := .condition (.text .author Sample.bob)
    let size : PageSize := ⟨1, by decide⟩
    let c := (⟨⟨⟨[m 1, m 2, m 3]⟩, some 2, []⟩, []⟩ : Client).after
      [.query p, .openPages p size, .poll 0]
    (c.perform (.paginate p size)).1 =
        .failed (.query (.store (.fetch (.offset 1) "connection reset"))) ∧
      (c.perform (.paginate p size)).2.store.fetches = 3 := by
  intro m p size c
  have hall : c.AllOrNothing p size :=
    (one_fetch_fails ⟨[m 1, m 2, m 3]⟩ (some 2) _).2.2.2.2.1 p size
  have hfetches : c.store.fetches = 1 := rfl
  have hfirst : c.store.log.fetch p size .start = .ok ⟨[m 1], some (.offset 1), false⟩ := rfl
  have hsecond : c.store.log.fetch p size (.offset 1) = .ok ⟨[m 3], none, true⟩ := rfl
  have hpages : c.store.log.pages p size =
      [(.start, ⟨[m 1], some (.offset 1), false⟩), (.offset 1, ⟨[m 3], none, true⟩)] := by
    rw [Log.pages, Log.pagesFrom_of_more hfirst rfl, Log.pagesFrom_of_last hsecond rfl]
  have hpaged := hall.hit 2 rfl
  rw [hfetches, hpages] at hpaged
  obtain ⟨q, hq, hreply, hcount, -⟩ := hpaged (by decide) (by decide)
  cases hq
  exact ⟨hreply, hcount⟩

end Client

end FeedQuery
