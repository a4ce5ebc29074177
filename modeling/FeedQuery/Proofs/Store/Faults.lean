import FeedQuery.Proofs.Store.Drain

/-!
A failing fetch among others. A computation on a store that fails one fetch is compared with the
same computation on the store without the fault: unless that fetch is one of its own it runs as
there, and otherwise it runs as far as that fetch and ends with the failure.
-/
namespace FeedQuery

variable {α β : Type}

namespace Store

/-- The store with another fetch that fails, or with none. -/
def failing (s : Store) (k? : Option Nat) : Store := ⟨s.log, k?, s.accesses⟩

/-- The store without a fetch that fails. -/
def plain (s : Store) : Store := s.failing none

@[simp] theorem log_failing (s : Store) (k? : Option Nat) : (s.failing k?).log = s.log := rfl

@[simp] theorem failAt?_failing (s : Store) (k? : Option Nat) : (s.failing k?).failAt? = k? := rfl

@[simp] theorem fetches_failing (s : Store) (k? : Option Nat) :
    (s.failing k?).fetches = s.fetches := rfl

@[simp] theorem failing_failAt? (s : Store) : s.failing s.failAt? = s := rfl

@[simp] theorem failing_failing (s : Store) (j? k? : Option Nat) :
    (s.failing j?).failing k? = s.failing k? := rfl

theorem plain_failing_of_none {s : Store} (h : s.failAt? = none) (k? : Option Nat) :
    (s.failing k?).plain = s := by
  rw [plain, failing_failing, ← h, failing_failAt?]

theorem fetches_le_of_suffix {s t : Store} (h : s.accesses <:+ t.accesses) :
    s.fetches ≤ t.fetches := h.sublist.countP_le

/-- What a computation gives on a store, next to what it gives without the fault. -/
structure OneFault (fault : StoreError → α) (s : Store) (run plain : α × Store) : Prop where
  log : plain.2.log = s.log
  failAt? : plain.2.failAt? = none
  /-- Accesses are only ever added. -/
  grows : s.accesses <:+ plain.2.accesses
  /-- Unless the fetch with the number of the fault is made, everything is as without it. -/
  spared : (∀ k, s.failAt? = some k → k < s.fetches ∨ plain.2.fetches ≤ k) →
    run = (plain.1, plain.2.failing s.failAt?)
  /-- If it is made, it fails, and is the last access. -/
  hit : ∀ k, s.failAt? = some k → s.fetches ≤ k → k < plain.2.fetches →
    ∃ p size cursor before, before.countP Access.isFetch = k ∧
      .fetch p size cursor :: before <:+ plain.2.accesses ∧
      run = (fault (.fetch cursor "connection reset"),
        ⟨s.log, some k, .fetch p size cursor :: before⟩)

namespace OneFault

variable {fault : StoreError → α} {s : Store} {run plain : α × Store}

/-- A value that is already there. -/
theorem pure (a : α) (hk : s.failAt? = none) (k? : Option Nat) :
    OneFault fault (s.failing k?) (a, s.failing k?) (a, s) := by
  refine ⟨rfl, hk, List.suffix_refl _, fun _ => rfl, ?_⟩
  intro k _ hle hlt
  exact absurd hle (Nat.not_le.2 hlt)

/-- A computation without a fetch. -/
theorem of_fetches_eq (hlog : plain.2.log = s.log) (hk : plain.2.failAt? = none)
    (hgrows : s.accesses <:+ plain.2.accesses) (hfetches : plain.2.fetches = s.fetches)
    (hrun : run = (plain.1, plain.2.failing s.failAt?)) : OneFault fault s run plain := by
  refine ⟨hlog, hk, hgrows, fun _ => hrun, ?_⟩
  intro k _ hle hlt
  omega

/-- What is made of the outcome afterwards. -/
theorem map (h : OneFault fault s run plain) (f : α → β) :
    OneFault (fun e => f (fault e)) s (f run.1, run.2) (f plain.1, plain.2) := by
  refine ⟨h.log, h.failAt?, h.grows, ?_, ?_⟩
  · intro hk
    rw [h.spared hk]
  · intro k hk hle hlt
    obtain ⟨p, size, cursor, before, hcount, hsuffix, hrun⟩ := h.hit k hk hle hlt
    exact ⟨p, size, cursor, before, hcount, hsuffix, by rw [hrun]⟩

/-- A second computation after the first one, which a failure of the first one ends. -/
theorem bind {fault' : StoreError → β} {next : α → Store → β × Store}
    (h : OneFault fault s run plain)
    (hend : ∀ e t, next (fault e) t = (fault' e, t))
    (hnext : OneFault fault' (plain.2.failing s.failAt?)
      (next plain.1 (plain.2.failing s.failAt?)) (next plain.1 plain.2)) :
    OneFault fault' s (next run.1 run.2) (next plain.1 plain.2) := by
  have hfirst := fetches_le_of_suffix h.grows
  have hsecond := fetches_le_of_suffix hnext.grows
  rw [fetches_failing] at hsecond
  refine ⟨hnext.log.trans h.log, hnext.failAt?, h.grows.trans hnext.grows, ?_, ?_⟩
  · intro hk
    have hrun : run = (plain.1, plain.2.failing s.failAt?) := by
      apply h.spared
      intro k hks
      rcases hk k hks with hlt | hle
      · exact .inl hlt
      · exact .inr (Nat.le_trans hsecond hle)
    rw [hrun]
    apply hnext.spared
    intro k hks
    rw [fetches_failing]
    rcases hk k hks with hlt | hle
    · exact .inl (Nat.lt_of_lt_of_le hlt hfirst)
    · exact .inr hle
  · intro k hk hle hlt
    -- The fault is in the first part, or the first part is spared and it is in the second.
    by_cases hmid : k < plain.2.fetches
    · obtain ⟨p, size, cursor, before, hcount, hsuffix, hrun⟩ := h.hit k hk hle hmid
      refine ⟨p, size, cursor, before, hcount, hsuffix.trans hnext.grows, ?_⟩
      rw [hrun, hend]
    · have hrun : run = (plain.1, plain.2.failing s.failAt?) := by
        apply h.spared
        intro j hj
        rw [hk] at hj
        cases hj
        exact .inr (Nat.le_of_not_lt hmid)
      rw [hrun]
      obtain ⟨p, size, cursor, before, hcount, hsuffix, hrun⟩ :=
        hnext.hit k hk (Nat.le_of_not_lt hmid) hlt
      refine ⟨p, size, cursor, before, hcount, hsuffix, ?_⟩
      rw [hrun, log_failing, h.log]

/-- Either there is no fault among the fetches, or the run ends at it. -/
theorem spared_or_hit (h : OneFault fault s run plain) :
    run = (plain.1, plain.2.failing s.failAt?) ∨
      ∃ k accesses, s.failAt? = some k ∧ run.2 = ⟨s.log, some k, accesses⟩ := by
  by_cases hit : ∃ k, s.failAt? = some k ∧ s.fetches ≤ k ∧ k < plain.2.fetches
  · obtain ⟨k, hk, hle, hlt⟩ := hit
    obtain ⟨p, size, cursor, before, -, -, hrun⟩ := h.hit k hk hle hlt
    exact .inr ⟨k, _, hk, by rw [hrun]⟩
  · refine .inl (h.spared ?_)
    intro k hk
    by_cases hlt : k < s.fetches
    · exact .inl hlt
    · exact .inr (Nat.le_of_not_lt fun hp => hit ⟨k, hk, Nat.le_of_not_lt hlt, hp⟩)

theorem log_run (h : OneFault fault s run plain) : run.2.log = s.log := by
  rcases h.spared_or_hit with hrun | ⟨k, accesses, -, hrun⟩
  · rw [hrun, log_failing, h.log]
  · rw [hrun]

theorem failAt?_run (h : OneFault fault s run plain) : run.2.failAt? = s.failAt? := by
  rcases h.spared_or_hit with hrun | ⟨k, accesses, hk, hrun⟩
  · rw [hrun, failAt?_failing]
  · rw [hrun, hk]

end OneFault

theorem oneFault_fetch (s : Store) (p : Predicate) (size : PageSize) (cursor : Cursor) :
    OneFault .error s (s.fetch p size cursor) (s.plain.fetch p size cursor) := by
  have hplain : s.plain.fetch p size cursor =
      (s.log.fetch p size cursor, s.plain.record (.fetch p size cursor)) :=
    fetch_of_ne (spares_of_failAt?_eq_none rfl 1).ne p size cursor
  rw [hplain]
  refine ⟨rfl, rfl, List.suffix_cons _ _, ?_, ?_⟩
  · intro hk
    have hne : s.failAt? ≠ some s.fetches := by
      intro h
      have hfetches := hk s.fetches h
      rw [fetches_record_fetch] at hfetches
      change s.fetches < s.fetches ∨ s.fetches + 1 ≤ s.fetches at hfetches
      omega
    exact fetch_of_ne hne p size cursor
  · intro k hk hle hlt
    rw [fetches_record_fetch] at hlt
    change k < s.fetches + 1 at hlt
    have hnow : k = s.fetches := by omega
    subst hnow
    refine ⟨p, size, cursor, s.accesses, rfl, List.suffix_refl _, ?_⟩
    rw [fetch_of_eq hk, record, hk]

end Store

open Store

/-- The outcome of a poll apart from the store. -/
def Poll.outcome {σ : Type} (x : Poll α × σ × Store) : (Poll α × σ) × Store :=
  ((x.1, x.2.1), x.2.2)

namespace PageStream

/-- What a stream makes of a fetch. -/
def ofFetch (s : PageStream) : Except StoreError Page → Poll (List Message) × PageStream
  | .error e => (.failed e, s.seek none)
  | .ok page => (.item page.rows, s.seek (if page.isLast then none else page.next?))

theorem outcome_next_of_some {s : PageStream} {cursor : Cursor} (hc : s.cursor? = some cursor)
    (store : Store) : Poll.outcome (s.next store) =
      (s.ofFetch (store.fetch s.predicate s.size cursor).1,
        (store.fetch s.predicate s.size cursor).2) := by
  simp only [next, hc]
  rcases store.fetch s.predicate s.size cursor with ⟨_ | _, _⟩ <;> rfl

theorem oneFault_next (s : PageStream) (store : Store) :
    OneFault (fun e => (.failed e, s.seek none)) store (Poll.outcome (s.next store))
      (Poll.outcome (s.next store.plain)) := by
  cases hc : s.cursor? with
  | none =>
    rw [next_of_none hc, next_of_none hc]
    exact .of_fetches_eq rfl rfl (List.suffix_refl _) rfl rfl
  | some cursor =>
    rw [outcome_next_of_some hc, outcome_next_of_some hc]
    exact (oneFault_fetch store s.predicate s.size cursor).map s.ofFetch

/-- A stream that has failed has nothing more to fetch. -/
theorem cursor?_of_failed {s t : PageStream} {store store' : Store} {e : StoreError}
    (h : s.next store = (.failed e, t, store')) : t.cursor? = none := by
  unfold next at h
  split at h
  · cases h
  · split at h
    · cases h
      rfl
    · cases h

/-- What a drain does after its first poll. -/
def drainAfter (x : Poll (List Message) × PageStream) (store : Store) :
    Except StoreError (List Message) × Store :=
  match x with
  | (.done, _) => (.ok [], store)
  | (.failed e, _) => (.error e, store)
  | (.item rows, s) => ((s.drain store).1.map (rows ++ ·), (s.drain store).2)

theorem drain_eq (s : PageStream) (store : Store) :
    s.drain store =
      drainAfter (Poll.outcome (s.next store)).1 (Poll.outcome (s.next store)).2 := by
  rw [drain]
  split <;> simp_all [Poll.outcome, drainAfter]

theorem oneFault_drain (s : PageStream) (store : Store) :
    OneFault .error store (s.drain store) (s.drain store.plain) := by
  -- On the fetches still to make without the fault; with it there are no more.
  induction hn : s.remaining store using Nat.strongRecOn generalizing s store with
  | ind n ih =>
    have hnext := oneFault_next s store
    have hplain : (s.next store.plain).2.2.failAt? = none := hnext.failAt?
    rw [drain_eq s store, drain_eq s store.plain]
    refine hnext.bind (fun _ _ => rfl) ?_
    rcases h : s.next store.plain with ⟨rows | _ | e, t, store'⟩
    · have hlt : t.remaining store' < s.remaining store.plain := remaining_next h
      have hrest := ih (t.remaining store') (hn ▸ hlt) t (store'.failing store.failAt?) rfl
      rw [h] at hplain
      rw [plain_failing_of_none (s := store') hplain] at hrest
      exact hrest.map (Except.map (rows ++ ·))
    · rw [h] at hplain
      exact .pure _ hplain store.failAt?
    · rw [h] at hplain
      exact .pure _ hplain store.failAt?

end PageStream

namespace RecordStream

/-- What a stream of records does after it asked for a page. -/
def nextAfter (x : Poll (List Message) × PageStream) (store : Store) :
    (Poll Message × RecordStream) × Store :=
  match x with
  | (.done, pages) => ((.done, ⟨pages, []⟩), store)
  | (.failed e, pages) => ((.failed e, ⟨pages, []⟩), store)
  | (.item (m :: ms), pages) => ((.item m, ⟨pages, ms⟩), store)
  | (.item [], pages) => Poll.outcome (next ⟨pages, []⟩ store)

theorem outcome_next_of_nil (pages : PageStream) (store : Store) :
    Poll.outcome (next ⟨pages, []⟩ store) =
      nextAfter (Poll.outcome (pages.next store)).1 (Poll.outcome (pages.next store)).2 := by
  rw [next]
  dsimp only
  split <;> simp_all [Poll.outcome, nextAfter]

theorem next_of_cons (pages : PageStream) (m : Message) (ms : List Message) (store : Store) :
    next ⟨pages, m :: ms⟩ store = (.item m, ⟨pages, ms⟩, store) := by
  rw [next]

theorem oneFault_next (s : RecordStream) (store : Store) :
    OneFault (fun e => (.failed e, ⟨s.pages.seek none, []⟩)) store (Poll.outcome (s.next store))
      (Poll.outcome (s.next store.plain)) := by
  rcases s with ⟨pages, _ | ⟨m, ms⟩⟩
  · induction hn : pages.remaining store using Nat.strongRecOn generalizing pages store with
    | ind n ih =>
      have hnext := pages.oneFault_next store
      have hplain : (pages.next store.plain).2.2.failAt? = none := hnext.failAt?
      have hseek := pages.next_eq_seek store.plain
      rw [outcome_next_of_nil pages store, outcome_next_of_nil pages store.plain]
      refine hnext.bind (fun _ _ => rfl) ?_
      rcases h : pages.next store.plain with ⟨(_ | ⟨m, ms⟩) | _ | e, t, store'⟩
      · have hlt : t.remaining store' < pages.remaining store.plain :=
          PageStream.remaining_next h
        have hrest := ih (t.remaining store') (hn ▸ hlt) (store'.failing store.failAt?) t rfl
        rw [h] at hplain hseek
        rw [plain_failing_of_none (s := store') hplain] at hrest
        have hend : t.seek none = pages.seek none := by
          rw [show t = pages.seek t.cursor? from hseek]
          rfl
        rw [hend] at hrest
        exact hrest
      · rw [h] at hplain
        exact .pure _ hplain store.failAt?
      · rw [h] at hplain
        exact .pure _ hplain store.failAt?
      · rw [h] at hplain
        exact .pure _ hplain store.failAt?
  · rw [next_of_cons, next_of_cons]
    exact OneFault.pure (s := store.plain) _ rfl store.failAt?

/-- A stream of records that has failed has nothing more to give. -/
theorem ended_of_failed {s t : RecordStream} {store store' : Store} {e : StoreError}
    (h : s.next store = (.failed e, t, store')) : t.pages.cursor? = none ∧ t.buffer = [] := by
  fun_induction next s store with
  | case1 s store m ms hbuffer => cases h
  | case2 s store hbuffer pages store'' hnext => cases h
  | case3 s store hbuffer e' pages store'' hnext =>
    cases h
    exact ⟨PageStream.cursor?_of_failed hnext, rfl⟩
  | case4 s store hbuffer m ms pages store'' hnext => cases h
  | case5 s store hbuffer pages store'' hnext ih => exact ih h

theorem next_of_ended {s : RecordStream} (hc : s.pages.cursor? = none) (hb : s.buffer = [])
    (store : Store) : s.next store = (.done, s, store) := by
  rcases s with ⟨pages, buffer⟩
  cases hb
  rw [next]
  dsimp only
  split <;> simp_all [PageStream.next_of_none hc]

end RecordStream

end FeedQuery
