import FeedQuery.Proofs.Outcome
import FeedQuery.Proofs.Store.Drain
import FeedQuery.Sample
import FeedQuery.Service

/-!
Queries with a page size. While the log does not change, a page size that the settings allow has no
influence on the answer, and any other one is refused after the filter was compiled.
-/
namespace FeedQuery

namespace Settings

variable {s : Settings} {n : Nat}

theorem allow_zero (s : Settings) : s.allow (some 0) = .error ⟨0, .zero⟩ := rfl

theorem allow_of_le (hpos : 0 < n) (hle : n ≤ s.maximum.val) :
    s.allow (some n) = .ok (some ⟨n, hpos⟩) := by
  simp [allow, PageSize.ofNat?, hpos, Nat.not_lt.2 hle]

theorem allow_of_lt (h : s.maximum.val < n) :
    s.allow (some n) = .error ⟨n, .aboveMaximum s.maximum⟩ := by
  have hpos : 0 < n := by omega
  simp [allow, PageSize.ofNat?, hpos, h]

end Settings

namespace Service

/-- The service of a host keeps its settings, and its store is the host's. -/
theorem init_eq_ok {host : Host} {settings : Settings} {s : Service} {store : Store}
    (h : init host settings = .ok (s, store)) :
    host.store? = some store ∧ s.settings = settings := by
  rcases host with ⟨id, store?⟩
  cases store? with
  | none => cases h
  | some store' =>
    simp only [init, Settings.validate] at h
    split at h
    · cases h
    · cases h
      exact ⟨rfl, rfl⟩

theorem init_of_le {settings : Settings} (h : settings.pageSize.val ≤ settings.maximum.val)
    (id : String) (store : Store) : init ⟨id, some store⟩ settings =
      .ok (⟨if id = "" then settings.selfId?.getD "" else id, settings⟩, store) := by
  have hvalid : settings.validate = .ok settings := if_neg (Nat.not_lt.2 h)
  exact bind_of_eq_ok (mapError_eq_ok_iff.2 hvalid)

theorem init_of_lt {settings : Settings} (h : settings.maximum.val < settings.pageSize.val)
    (id : String) (store : Store) : init ⟨id, some store⟩ settings =
      .error (.settings (.aboveMaximum settings.pageSize settings.maximum)) := by
  have hinvalid : settings.validate = .error (.aboveMaximum settings.pageSize settings.maximum) :=
    if_pos h
  rw [init]
  dsimp only
  rw [hinvalid]
  rfl

/-- The answer to a query for messages, or for posts only. -/
def answer (s : Service) (postsOnly : Bool) (q : Query) (store : Store) :
    Except QueryError (List Message) × Store :=
  if postsOnly then s.queryPosts q store else s.queryMessages q store

/-- The predicate that a query runs. -/
def narrow (postsOnly : Bool) (p : Predicate) : Predicate := if postsOnly then p.ofPosts else p

theorem compile_of_error {filter : RawFilter} {e : FilterError} (h : filter.compile = .error e) :
    compile filter = .error (.compile e) := by
  rw [compile, h]
  rfl

theorem compile_of_ok {filter : RawFilter} {p : Predicate} (h : filter.compile = .ok p) :
    compile filter = .ok p := by
  rw [compile, h]
  rfl

theorem answer_of_error {filter : RawFilter} {e : FilterError} (h : filter.compile = .error e)
    (s : Service) (postsOnly : Bool) (paginate? : Option UInt64) (store : Store) :
    s.answer postsOnly ⟨filter, paginate?⟩ store = (.error (.compile e), store) := by
  cases postsOnly <;> simp [answer, queryMessages, queryPosts, compile_of_error h]

theorem answer_of_ok {filter : RawFilter} {p : Predicate} (h : filter.compile = .ok p)
    (s : Service) (postsOnly : Bool) (paginate? : Option UInt64) (store : Store) :
    s.answer postsOnly ⟨filter, paginate?⟩ store = s.run (narrow postsOnly p) paginate? store := by
  cases postsOnly <;> simp [answer, narrow, queryMessages, queryPosts, compile_of_ok h]

/-- Without a page size a predicate gives all matches, in one access. -/
theorem run_none (s : Service) (p : Predicate) (store : Store) :
    s.run p none store = (.ok (store.log.query p), store.record (.query p)) := rfl

/-- With an allowed page size it gives the same, in at most as many fetches as messages, and one. -/
theorem run_some {s : Service} {n : UInt64} {store : Store} (p : Predicate) (hpos : 0 < n.toNat)
    (hle : n.toNat ≤ s.settings.maximum.val) (hk : store.failAt? = none) :
    (s.run p (some n) store).1 = .ok (store.log.query p) ∧
      (s.run p (some n) store).2.fetches ≤ store.fetches + store.log.length + 1 := by
  have hrun : store.run p (some ⟨n.toNat, hpos⟩) = _ :=
    Store.run_of_spares (Store.spares_of_failAt?_eq_none hk _)
  have hlen := Log.length_pagesFrom_le p ⟨n.toNat, hpos⟩ (Log.start_position_le store.log)
  simp only [run, Option.map_some, Settings.allow_of_le hpos hle, hrun]
  refine ⟨rfl, ?_⟩
  rw [Store.fetches_recordFetches, List.length_map, Log.pages]
  rw [Cursor.position_start] at hlen
  omega

/-- A page size that is not allowed is refused before the store is touched. -/
theorem run_of_error {s : Service} {n : UInt64} {e : PageSizeError} (p : Predicate) (store : Store)
    (h : s.settings.allow (some n.toNat) = .error e) :
    s.run p (some n) store = (.error (.pageSize e), store) := by
  simp only [run, Option.map_some, h]

/-- The error of a query whose page size is not allowed. A filter that does not compile is
reported first. -/
def refusal (filter : RawFilter) (e : PageSizeError) : QueryError :=
  match filter.compile with
  | .error e => .compile e
  | .ok _ => .pageSize e

theorem answer_of_refused {s : Service} {n : UInt64} {e : PageSizeError} (postsOnly : Bool)
    (filter : RawFilter) (store : Store) (h : s.settings.allow (some n.toNat) = .error e) :
    s.answer postsOnly ⟨filter, some n⟩ store = (.error (refusal filter e), store) := by
  cases hc : filter.compile with
  | error e' => rw [answer_of_error hc, refusal, hc]
  | ok p => rw [answer_of_ok hc, run_of_error _ _ h, refusal, hc]

/-- The service of a host with a log answers a query page by page as it does at once, whatever the
log has become by then. An allowed page size needs at most as many fetches as there are messages,
and one; any other page size is refused with nothing read. -/
theorem paginated_answer_eq_eager {l₀ : Log} {id : String} {settings : Settings} {s : Service}
    {store₀ : Store} (hinit : init ⟨id, some (.ofLog l₀)⟩ settings = .ok (s, store₀))
    (l : Log) (accesses : List Access) (postsOnly : Bool) (filter : RawFilter) (n : UInt64) :
    let store : Store := ⟨l, none, accesses⟩
    let paged := s.answer postsOnly ⟨filter, some n⟩ store
    let eager := s.answer postsOnly ⟨filter, none⟩ store
    (1 ≤ n.toNat → n.toNat ≤ settings.maximum.val →
      paged.1 = eager.1 ∧ paged.2.fetches ≤ store.fetches + l.length + 1) ∧
    (∀ e, filter.compile = .error e → eager.1 = .error (.compile e)) ∧
    (∀ p, filter.compile = .ok p → eager.1 = .ok (l.query (narrow postsOnly p))) ∧
    (n.toNat = 0 → paged = (.error (refusal filter ⟨0, .zero⟩), store)) ∧
    (settings.maximum.val < n.toNat →
      paged = (.error (refusal filter ⟨n.toNat, .aboveMaximum settings.maximum⟩), store)) := by
  intro store paged eager
  obtain ⟨-, rfl⟩ := init_eq_ok hinit
  refine ⟨?_, ?_, ?_, ?_, ?_⟩
  · intro hpos hle
    cases hc : filter.compile with
    | error e =>
      simp only [paged, eager, answer_of_error hc, true_and]
      omega
    | ok p =>
      simp only [paged, eager, answer_of_ok hc]
      exact run_some (narrow postsOnly p) hpos hle rfl
  · intro e hc
    simp only [eager, answer_of_error hc]
  · intro p hc
    simp only [eager, answer_of_ok hc, run_none]
    rfl
  · intro hn
    apply answer_of_refused
    rw [hn]
    exact Settings.allow_zero s.settings
  · intro hlt
    exact answer_of_refused postsOnly filter store (Settings.allow_of_lt hlt)

/-- Posts of a small log, two a page: the service was bound to the log when it was still empty. -/
theorem paginated_answer_eq_eager_mixed :
    let filter : RawFilter := ⟨none, none, some "channel", some (.string "intro"), none⟩
    let p : Predicate := .condition (.text .channel "intro")
    let s : Service := ⟨"@me", .default⟩
    init ⟨"@me", some (.ofLog .empty)⟩ .default = .ok (s, .ofLog .empty) ∧
      filter.compile = .ok p ∧ 1 ≤ (2 : UInt64).toNat ∧
      (2 : UInt64).toNat ≤ Settings.default.maximum.val ∧
      (s.answer true ⟨filter, some 2⟩ ⟨Sample.mixed, none, []⟩).1 =
        .ok (Sample.mixed.query p.ofPosts) := by
  intro filter p s
  have hinit : init ⟨"@me", some (.ofLog .empty)⟩ .default = .ok (s, .ofLog .empty) := rfl
  have hc : filter.compile = .ok p := rfl
  obtain ⟨hpaged, -, heager, -⟩ :=
    paginated_answer_eq_eager hinit Sample.mixed [] true filter 2
  refine ⟨hinit, hc, by decide, by decide, ?_⟩
  rw [(hpaged (by decide) (by decide)).1]
  exact heager p hc

end Service

end FeedQuery
