import FeedQuery.Proofs.Service.Pagination
import FeedQuery.Proofs.Store.Reads
import FeedQuery.Session

/-!
Calls of a service and polls of the streams it has opened, in any order. Every page that is fetched
is within the maximum of the settings, and a query that is refused leaves everything as it was.
-/
namespace FeedQuery

/-- The pages that a stream is made of. -/
def OpenStream.source : OpenStream → PageStream
  | .pages s => s
  | .records s => s.pages

namespace Session

variable {P : Access → Prop} {s : Session} {stream : OpenStream}

/-- What the open streams of a session ask for is of some kind. -/
def StreamsAsk (P : Access → Prop) (s : Session) : Prop := ∀ x ∈ s.streams, x.2.source.Asks P

/-- A session after reads of some kind, which is all that its streams ask for. -/
structure Served (P : Access → Prop) (s t : Session) : Prop where
  service : t.service = s.service
  store : s.store.Reads P t.store
  streams : t.StreamsAsk P

theorem Served.refl (h : s.StreamsAsk P) : Served P s s := ⟨rfl, .refl P s.store, h⟩

theorem streamsAsk_without (h : s.StreamsAsk P) (name : String) :
    ∀ x ∈ without name s.streams, x.2.source.Asks P :=
  fun x hx => h x (List.mem_filter.1 hx).1

theorem served_setStream (h : s.StreamsAsk P) (name : String) (hstream : stream.source.Asks P) :
    Served P s (s.setStream name stream) :=
  ⟨rfl, .refl P s.store, List.forall_mem_cons.2 ⟨hstream, streamsAsk_without h name⟩⟩

theorem served_onStore (h : s.StreamsAsk P) {run : Except Failure (Store → Reply × Store)}
    (hrun : ∀ f, run = .ok f → s.store.Reads P (f s.store).2) : Served P s (s.onStore run).2 := by
  cases run with
  | error e => exact .refl h
  | ok f => exact ⟨rfl, hrun f rfl, h⟩

theorem served_poll (h : s.StreamsAsk P) (name : String) (hstream : stream.source.Asks P) :
    Served P s (s.poll name stream).2 := by
  cases stream with
  | pages stream =>
    obtain ⟨hreads, hasks⟩ := PageStream.reads_of_next hstream (rfl : stream.next s.store = _)
    exact ⟨rfl, hreads, List.forall_mem_cons.2 ⟨hasks, streamsAsk_without h name⟩⟩
  | records stream =>
    obtain ⟨hreads, hasks⟩ := RecordStream.reads_next hstream s.store
    exact ⟨rfl, hreads, List.forall_mem_cons.2 ⟨hasks, streamsAsk_without h name⟩⟩

theorem served_takeAll (h : s.StreamsAsk P) (name : String) (hstream : stream.source.Asks P) :
    Served P s (s.takeAll name stream).2 := by
  cases stream with
  | pages stream =>
    exact ⟨rfl, PageStream.reads_drain hstream s.store, streamsAsk_without h name⟩
  | records stream =>
    exact ⟨rfl, PageStream.reads_drain hstream s.store, streamsAsk_without h name⟩

theorem asks_of_lookup (h : s.StreamsAsk P) {name : String}
    (hlookup : s.streams.lookup name = some stream) : stream.source.Asks P := by
  obtain ⟨before, behind, hstreams, -⟩ := List.lookup_eq_some_iff.1 hlookup
  refine h (name, stream) ?_
  rw [hstreams]
  exact List.mem_append_right _ List.mem_cons_self

theorem served_next (h : s.StreamsAsk P) (name : String) :
    Served P s (s.answer (.next name)).2 := by
  rw [answer]
  split
  · exact .refl h
  · rename_i stream hlookup
    exact served_poll h name (asks_of_lookup h hlookup)

theorem served_drain (h : s.StreamsAsk P) (name : String) :
    Served P s (s.answer (.drain name)).2 := by
  rw [answer]
  split
  · exact .refl h
  · rename_i stream hlookup
    exact served_takeAll h name (asks_of_lookup h hlookup)

theorem served_close (h : s.StreamsAsk P) (name : String) :
    Served P s (s.answer (.close name)).2 :=
  ⟨rfl, .refl P s.store, streamsAsk_without h name⟩

end Session

/-- A fetch of a page that is not empty and within a maximum, or a query, which has no pages. -/
def Access.Within (maximum : PageSize) : Access → Prop
  | .query _ => True
  | .fetch _ size _ => 1 ≤ size.val ∧ size.val ≤ maximum.val

theorem Settings.le_of_allow {settings : Settings} {n? : Option Nat} {size? : Option PageSize}
    (h : settings.allow n? = .ok size?) : ∀ size ∈ size?, size.val ≤ settings.maximum.val := by
  unfold allow at h
  split at h
  · cases h
    exact nofun
  · split at h
    · cases h
    · split at h
      · cases h
      · rename_i hlt
        cases h
        rintro size ⟨⟩
        exact Nat.not_lt.1 hlt

namespace Service

variable (s : Service)

/-- A query fetches pages within the maximum, if any. -/
theorem reads_answer (postsOnly : Bool) (q : Query) (store : Store) :
    store.Reads (Access.Within s.settings.maximum) (s.answer postsOnly q store).2 := by
  obtain ⟨filter, paginate?⟩ := q
  cases hc : filter.compile with
  | error e =>
    rw [answer_of_error hc]
    exact .refl _ store
  | ok p =>
    rw [answer_of_ok hc, run]
    split
    · exact .refl _ store
    · rename_i size? hallow
      exact Store.reads_run trivial
        (fun size hsize _ => ⟨size.pos, Settings.le_of_allow hallow size hsize⟩) store

/-- A stream of posts asks for pages within the maximum, if the size of its pages is. -/
theorem asks_userPostsStream (h : s.settings.pageSize.val ≤ s.settings.maximum.val)
    (id? : Option String) :
    (s.userPostsStream id?).pages.Asks (Access.Within s.settings.maximum) :=
  fun _ => ⟨s.settings.pageSize.pos, h⟩

end Service

/-- What is asked of a service and of the streams that it has opened. -/
inductive Call where
  | compile (filter : RawFilter)
  | query (q : Query) (postsOnly : Bool)
  | userPosts (id? : Option String)
  | openPosts (name : String) (id? : Option String)
  | next (name : String)
  | drain (name : String)
  | close (name : String)

/-- What happens next: a call, or others change the log and which of the fetches fails. -/
inductive Turn where
  | call (c : Call)
  | change (l : Log) (failAt? : Option Nat)

/-- A reply that refuses a call for its filter or for its page size. -/
inductive Reply.Refusal : Reply → Prop where
  | filter (e : FilterError) : Refusal (.failed (.query (.compile e)))
  | pageSize (e : PageSizeError) : Refusal (.failed (.query (.pageSize e)))

namespace Session

/-- What a call is answered, and the session after it. -/
def call (s : Session) : Call → Reply × Session
  | .compile filter =>
    match Service.compile filter with
    | .error e => (.failed (.query e), s)
    | .ok p => (.predicate p, s)
  | .query q postsOnly => s.onStore (.ok (queryReply (s.service.answer postsOnly q)))
  | .userPosts id? => s.answer (.userPosts id?)
  | .openPosts name id? => s.answer (.openStream name (.userPosts id?))
  | .next name => s.answer (.next name)
  | .drain name => s.answer (.drain name)
  | .close name => s.answer (.close name)

/-- What others change is not recorded as an access of the service. -/
def turn (s : Session) : Turn → Session
  | .call c => (s.call c).2
  | .change l failAt? => s.setStore ⟨l, failAt?, s.store.accesses⟩

def after (s : Session) (turns : List Turn) : Session := turns.foldl turn s

/-- A query in JSON is the call with the query that its text is decoded as. -/
theorem answer_query {text : String} {q : Query} (h : Query.ofText text = .ok q) (s : Session)
    (postsOnly : Bool) : s.answer (.query text postsOnly) = s.call (.query q postsOnly) := by
  cases postsOnly <;> simp only [answer, h] <;> rfl

theorem answer_compile {text : String} {filter : RawFilter} (h : RawFilter.ofText text = .ok filter)
    (s : Session) : s.answer (.compile text) = s.call (.compile filter) := by
  have hread : readFilter text = (Service.compile filter).mapError .query := by
    rw [readFilter, h]
    rfl
  rw [answer, hread, call]
  cases Service.compile filter <;> rfl

variable {P : Access → Prop} {s : Session}

/-- Calls make accesses that the service permits, and otherwise what the streams ask for. -/
theorem served_call (hP : ∀ a, a.Within s.service.settings.maximum → P a)
    (hposts : ∀ id?, (s.service.userPostsStream id?).pages.Asks P) (h : s.StreamsAsk P) (c : Call) :
    Served P s (s.call c).2 := by
  cases c with
  | compile filter =>
    rw [call]
    split <;> exact .refl h
  | query q postsOnly =>
    refine served_onStore h ?_
    rintro f ⟨⟩
    exact (s.service.reads_answer postsOnly q s.store).imp hP
  | userPosts id? =>
    refine served_onStore h ?_
    rintro f ⟨⟩
    exact .record (hP (.query _) trivial) s.store
  | openPosts name id? => exact served_setStream h name (hposts id?)
  | next name => exact served_next h name
  | drain name => exact served_drain h name
  | close name => exact served_close h name

theorem call_query_of_error {q : Query} {postsOnly : Bool} {e : QueryError}
    (h : s.service.answer postsOnly q s.store = (.error e, s.store)) :
    s.call (.query q postsOnly) = (.failed (.query e), s) := by
  simp only [call, onStore, queryReply, h]
  rfl

theorem call_query_of_refusal {q : Query} {postsOnly : Bool}
    (h : (s.call (.query q postsOnly)).1.Refusal) : (s.call (.query q postsOnly)).2 = s := by
  obtain ⟨filter, paginate?⟩ := q
  cases hc : filter.compile with
  | error e => rw [call_query_of_error (Service.answer_of_error hc ..)]
  | ok p =>
    cases hallow : s.service.settings.allow (paginate?.map UInt64.toNat) with
    | error e =>
      have hrefused : s.service.answer postsOnly ⟨filter, paginate?⟩ s.store =
          (.error (.pageSize e), s.store) := by
        simp only [Service.answer_of_ok hc, Service.run, hallow]
      rw [call_query_of_error hrefused]
    | ok size? =>
      simp only [call, onStore, queryReply, Service.answer_of_ok hc, Service.run, hallow] at h
      rcases hrun : s.store.run (Service.narrow postsOnly p) size? with ⟨rows | e, store⟩ <;>
        rw [hrun] at h <;> cases h

theorem not_refusal_ofPoll {α : Type} {item : α → Reply} (h : ∀ a, ¬ (item a).Refusal)
    (answer : Poll α) : ¬ (ofPoll item answer).Refusal := by
  intro hrefusal
  cases answer with
  | item a => exact h a hrefusal
  | done => cases hrefusal
  | failed e => cases hrefusal

theorem not_refusal_poll (s : Session) (name : String) (stream : OpenStream) :
    ¬ (s.poll name stream).1.Refusal := by
  cases stream with
  | pages stream =>
    refine not_refusal_ofPoll (fun rows h => ?_) _
    cases h
  | records stream =>
    refine not_refusal_ofPoll (fun m h => ?_) _
    cases h

theorem not_refusal_takeAll (s : Session) (name : String) (stream : OpenStream) :
    ¬ (s.takeAll name stream).1.Refusal := by
  have hrows (rows : Except StoreError (List Message)) :
      ¬ (ofRows (rows.mapError Failure.store)).Refusal := by
    intro h
    cases rows <;> cases h
  cases stream with
  | pages stream => exact hrows _
  | records stream => exact hrows _

/-- A refused call leaves the session as it was, and so the store untouched. -/
theorem call_of_refusal (c : Call) (h : (s.call c).1.Refusal) : (s.call c).2 = s := by
  cases c with
  | compile filter =>
    rw [call]
    cases Service.compile filter <;> rfl
  | query q postsOnly => exact call_query_of_refusal h
  | userPosts id? => cases h
  | openPosts name id? => cases h
  | next name =>
    rw [call, answer] at h ⊢
    cases hlookup : s.streams.lookup name with
    | none => rfl
    | some stream =>
      rw [hlookup] at h
      exact absurd h (s.not_refusal_poll name stream)
  | drain name =>
    rw [call, answer] at h ⊢
    cases hlookup : s.streams.lookup name with
    | none => rfl
    | some stream =>
      rw [hlookup] at h
      exact absurd h (s.not_refusal_takeAll name stream)
  | close name => cases h

/-- A session of a service on a store, after any calls and changes. What its streams ask for is part
of it: a stream is polled long after the call that opened it. -/
structure Reached (v : Service) (store : Store) (s : Session) : Prop where
  service : s.service = v
  made : store.Made (Access.Within v.settings.maximum) s.store
  streams : s.StreamsAsk (Access.Within v.settings.maximum)

variable {v : Service} {store : Store}

theorem Reached.turn (h : Reached v store s)
    (hle : v.settings.pageSize.val ≤ v.settings.maximum.val) (e : Turn) :
    Reached v store (s.turn e) := by
  obtain ⟨rfl, hmade, hstreams⟩ := h
  cases e with
  | call c =>
    obtain ⟨hservice, hreads, hstreams⟩ := served_call
      (fun _ => id) (s.service.asks_userPostsStream hle) hstreams c
    exact ⟨hservice, hmade.trans hreads.made, hstreams⟩
  | change l failAt? => exact ⟨rfl, hmade.trans (.of_accesses_eq rfl), hstreams⟩

theorem Reached.after (h : Reached v store s)
    (hle : v.settings.pageSize.val ≤ v.settings.maximum.val) (turns : List Turn) :
    Reached v store (s.after turns) := by
  induction turns generalizing s with
  | nil => exact h
  | cons e turns ih => exact ih (h.turn hle e)

end Session

namespace Service

/-- A service is not bound with settings whose own page size is above their maximum. -/
theorem pageSize_le_of_init {host : Host} {settings : Settings} {s : Service} {store : Store}
    (h : init host settings = .ok (s, store)) : settings.pageSize.val ≤ settings.maximum.val := by
  rcases host with ⟨id, store?⟩
  cases store? with
  | none => cases h
  | some store' =>
    simp only [init, Settings.validate] at h
    split at h
    · cases h
    · rename_i hlt
      exact Nat.not_lt.1 hlt

/-- A service on any host and with any settings that it could be bound to, after calls of it and
polls of its streams in any order, while others may change the log: each page that was fetched for
it is not empty and within the maximum. A call that is refused for its filter or its page size
leaves everything as it is; one with a filter that does not compile is, and so is one with a page
size that is zero or above the maximum, whatever its filter. -/
theorem fetches_within_maximum {host : Host} {settings : Settings} {s : Service} {store : Store}
    (hinit : init host settings = .ok (s, store)) (turns : List Turn) :
    let t := (⟨s, store, []⟩ : Session).after turns
    (∃ made, t.store.accesses = made ++ store.accesses ∧ ∀ p size cursor,
      .fetch p size cursor ∈ made → 1 ≤ size.val ∧ size.val ≤ settings.maximum.val) ∧
    (∀ c, (t.call c).1.Refusal → (t.call c).2 = t) ∧
    (∀ filter e paginate? postsOnly, filter.compile = .error e →
      t.call (.query ⟨filter, paginate?⟩ postsOnly) = (.failed (.query (.compile e)), t)) ∧
    ∀ filter (n : UInt64) postsOnly, n.toNat = 0 ∨ settings.maximum.val < n.toNat →
      ∃ e, t.call (.query ⟨filter, some n⟩ postsOnly) =
        (.failed (.query (refusal filter e)), t) := by
  intro t
  have hle := pageSize_le_of_init hinit
  obtain ⟨-, rfl⟩ := init_eq_ok hinit
  have hstart : Session.Reached s store ⟨s, store, []⟩ := ⟨rfl, .of_accesses_eq rfl, nofun⟩
  obtain ⟨hservice, hmade, -⟩ : Session.Reached s store t := hstart.after hle turns
  refine ⟨?_, fun c => Session.call_of_refusal c, ?_, ?_⟩
  · obtain ⟨made, hmade, hwithin⟩ := hmade
    exact ⟨made, hmade, fun p size cursor hmem => hwithin _ hmem⟩
  · intro filter e paginate? postsOnly hc
    exact Session.call_query_of_error (answer_of_error hc ..)
  · intro filter n postsOnly hn
    obtain ⟨e, he⟩ : ∃ e, s.settings.allow (some n.toNat) = .error e := by
      rcases hn with hzero | hlt
      · exact ⟨_, hzero ▸ Settings.allow_zero s.settings⟩
      · exact ⟨_, Settings.allow_of_lt hlt⟩
    rw [← hservice] at he
    exact ⟨e, Session.call_query_of_error (answer_of_refused postsOnly filter t.store he)⟩

/-- Pages of one and of two messages are fetched. One more is above the maximum, and a filter that
does not compile is refused with any page size. -/
theorem fetches_within_maximum_mixed :
    let settings : Settings := ⟨⟨1, by decide⟩, ⟨2, by decide⟩, none⟩
    let s : Service := ⟨Sample.alice, settings⟩
    let all : RawFilter := ⟨none, none, some "isPublic", none, none⟩
    let unknown : RawFilter := ⟨none, none, some "isOdd", none, none⟩
    let t := (⟨s, .ofLog Sample.mixed, []⟩ : Session).after
      [.call (.openPosts "posts" none), .call (.next "posts"), .call (.query ⟨all, some 2⟩ false)]
    init ⟨Sample.alice, some (.ofLog Sample.mixed)⟩ settings = .ok (s, .ofLog Sample.mixed) ∧
      settings.maximum.val < (3 : UInt64).toNat ∧
      (∃ e, t.call (.query ⟨all, some 3⟩ true) = (.failed (.query (refusal all e)), t)) ∧
      unknown.compile = .error ⟨.root, .unknownOperator "isOdd"⟩ ∧
      t.call (.query ⟨unknown, some 3⟩ true) =
        (.failed (.query (.compile ⟨.root, .unknownOperator "isOdd"⟩)), t) := by
  intro settings s all unknown t
  have hinit : init ⟨Sample.alice, some (.ofLog Sample.mixed)⟩ settings =
      .ok (s, .ofLog Sample.mixed) := rfl
  have habove : settings.maximum.val < (3 : UInt64).toNat := by decide
  have hunknown : unknown.compile = .error ⟨.root, .unknownOperator "isOdd"⟩ := rfl
  obtain ⟨-, -, hfilter, hsize⟩ := fetches_within_maximum hinit
    [.call (.openPosts "posts" none), .call (.next "posts"), .call (.query ⟨all, some 2⟩ false)]
  exact ⟨hinit, habove, hsize all 3 true (.inr habove), hunknown,
    hfilter unknown _ (some 3) true hunknown⟩

end Service

end FeedQuery
