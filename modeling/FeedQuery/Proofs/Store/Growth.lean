import FeedQuery.Proofs.Log.Matches
import FeedQuery.Proofs.Outcome
import FeedQuery.Proofs.Service.Calls

/-!
A log under everything that may be done in a session. Appends make it longer at its end and nothing
else changes it, so what is found in it stays found, and the offset that an append answers is the
place of its message for good.
-/
namespace FeedQuery

namespace Log

/-- A page from the place of a match on begins with it. -/
theorem head_of_fetch {l : Log} {p : Predicate} {m : Message} {place : Nat}
    (hm : l.messages[place]? = some m) (hp : p.holds m = true) (size : PageSize) :
    ∃ page, l.fetch p size (.offset place) = .ok page ∧ page.rows.head? = some m := by
  obtain ⟨hlt, rfl⟩ := List.getElem?_eq_some_iff.1 hm
  obtain ⟨n, hn⟩ : ∃ n, size.val = n + 1 := ⟨size.val - 1, by have := size.pos; omega⟩
  have hscan : (scan p size.val (l.messages.drop place)).1.head? = some l.messages[place] := by
    rw [List.drop_eq_getElem_cons hlt, hn, scan, if_pos hp]
    rfl
  have hle : ¬ l.length < (Cursor.offset place).position := Nat.not_lt.2 (Nat.le_of_lt hlt)
  rw [fetch, if_neg hle]
  dsimp only
  split
  · exact ⟨_, rfl, hscan⟩
  · exact ⟨_, rfl, hscan⟩

end Log

/-- What may be done in a session: what requests do with the values that their texts stand for, and
requests themselves. -/
inductive Action where
  | append (m : Message)
  | execute (p : Predicate) (size? : Option PageSize)
  | fetch (p : Predicate) (size : PageSize) (cursor : Cursor)
  | openStream (name : String) (stream : OpenStream)
  | call (c : Call)
  | request (r : Request)

/-- The message that is appended, if one is. -/
def Action.message? : Action → Option Message
  | .append m => some m
  | .request (.append text) => (Message.ofText text).toOption
  | _ => none

namespace Session

/-- What an action is answered, and the session after it. -/
def act (s : Session) : Action → Reply × Session
  | .append m => (.offset s.store.log.length, s.setStore (s.store.append m))
  | .execute p size? => s.onStore (.ok (executeReply p size?))
  | .fetch p size cursor => s.onStore (.ok (fetchReply p size cursor))
  | .openStream name stream => (.opened (s.setStream name stream).streams.length,
    s.setStream name stream)
  | .call c => s.call c
  | .request r => s.answer r

/-- The session after some actions. -/
def follow (s : Session) (as : List Action) : Session := as.foldl (fun s a => (s.act a).2) s

/-- Accesses of any kind. -/
def Anything (_ : Access) : Prop := True

theorem streamsAsk_anything (s : Session) : s.StreamsAsk Anything := fun _ _ _ => trivial

theorem reads_executeReply (p : Predicate) (size? : Option PageSize) (store : Store) :
    store.Reads Anything (executeReply p size? store).2 := by
  have hrun : store.Reads Anything (store.run p size?).2 :=
    Store.reads_run trivial (fun _ _ _ => trivial) store
  exact hrun

theorem reads_fetchReply (p : Predicate) (size : PageSize) (cursor : Cursor) (store : Store) :
    store.Reads Anything (fetchReply p size cursor store).2 := by
  have hstore : (fetchReply p size cursor store).2 = store.record (.fetch p size cursor) := by
    rw [fetchReply, Store.fetch]
    split <;> simp_all
  rw [hstore]
  exact .record trivial store

theorem log_call (s : Session) (c : Call) : (s.call c).2.store.log = s.store.log :=
  (served_call (fun _ _ => trivial) (fun _ _ => trivial) (streamsAsk_anything s) c).store.log

/-- A request that does not append a message only reads. -/
theorem log_answer (s : Session) {r : Request} (h : (Action.request r).message? = none) :
    (s.answer r).2.store.log = s.store.log := by
  have hstreams := streamsAsk_anything s
  cases r with
  | append text =>
    rw [answer]
    split
    · rfl
    · rename_i m hm
      rw [Action.message?, hm] at h
      cases h
  | length => rfl
  | compile filter =>
    rw [answer]
    split <;> rfl
  | query text postsOnly =>
    refine (served_onStore hstreams fun f hf => ?_).store.log
    obtain ⟨q, -, hf⟩ := bind_eq_ok_iff.1 hf
    cases hf
    have hreads := (s.service.reads_answer postsOnly q s.store).imp (Q := Anything) fun _ _ => trivial
    cases postsOnly <;> exact hreads
  | userPosts id? => exact s.log_call (.userPosts id?)
  | execute filter size? =>
    refine (served_onStore hstreams fun f hf => ?_).store.log
    obtain ⟨p, -, hf⟩ := bind_eq_ok_iff.1 hf
    obtain ⟨size?, -, hf⟩ := bind_eq_ok_iff.1 hf
    cases hf
    exact reads_executeReply p size? s.store
  | fetch filter size cursor =>
    refine (served_onStore hstreams fun f hf => ?_).store.log
    obtain ⟨p, -, hf⟩ := bind_eq_ok_iff.1 hf
    obtain ⟨cursor, -, hf⟩ := bind_eq_ok_iff.1 hf
    obtain ⟨size, -, hf⟩ := bind_eq_ok_iff.1 hf
    cases hf
    exact reads_fetchReply p size cursor s.store
  | openStream name source =>
    rw [answer]
    split <;> rfl
  | next name => exact s.log_call (.next name)
  | drain name => exact s.log_call (.drain name)
  | close name => rfl

theorem log_act (s : Session) {a : Action} (h : a.message? = none) :
    (s.act a).2.store.log = s.store.log := by
  cases a with
  | append m => cases h
  | execute p size? => exact (reads_executeReply p size? s.store).log
  | fetch p size cursor => exact (reads_fetchReply p size cursor s.store).log
  | openStream name stream => rfl
  | call c => exact s.log_call c
  | request r => exact s.log_answer h

/-- An append is answered with the length of the log before it. -/
theorem act_of_message (s : Session) {a : Action} {m : Message} (h : a.message? = some m) :
    s.act a = (.offset s.store.log.length, s.setStore (s.store.append m)) := by
  cases a with
  | append m' =>
    cases h
    rfl
  | request r =>
    cases r with
    | append text => rw [act, answer, toOption_eq_some_iff.1 h]
    | _ => cases h
  | _ => cases h

/-- An action adds the message that is appended at the end of the log, if one is, and leaves the
rest of it as it is. -/
theorem messages_act (s : Session) (a : Action) :
    (s.act a).2.store.log.messages = s.store.log.messages ++ a.message?.toList := by
  cases h : a.message? with
  | none => rw [log_act s h, Option.toList_none, List.append_nil]
  | some m =>
    rw [act_of_message s h]
    rfl

theorem messages_follow (s : Session) (as : List Action) :
    (s.follow as).store.log.messages = s.store.log.messages ++ as.filterMap Action.message? := by
  induction as generalizing s with
  | nil => exact (List.append_nil _).symm
  | cons a as ih =>
    show ((s.act a).2.follow as).store.log.messages = _
    rw [ih, messages_act, List.append_assoc, List.filterMap_cons]
    cases a.message? <;> rfl

/-- The log of a session in any state, and after any later actions. Only appends change it, each
adds its message at the end and is answered with its offset; the result of a query stays and what
the appended messages match is added to it; and from the offset of an append every page begins with
its message, for a predicate that accepts it. -/
theorem log_grows (s : Session) :
    (∀ a, (s.act a).2.store.log.messages = s.store.log.messages ++ a.message?.toList) ∧
    (∀ later, (s.follow later).store.log.messages =
      s.store.log.messages ++ later.filterMap Action.message?) ∧
    (∀ p later, (s.follow later).store.log.query p =
      s.store.log.query p ++ (later.filterMap Action.message?).filter fun m => p.holds m) ∧
    ∀ a m, a.message? = some m → ∃ o, (s.act a).1 = .offset o ∧
      ∀ later p size, p.holds m = true →
        ∃ page, ((s.act a).2.follow later).store.log.fetch p size (.offset o) = .ok page ∧
          page.rows.head? = some m := by
  refine ⟨s.messages_act, s.messages_follow, ?_, ?_⟩
  · intro p later
    rw [Log.query, messages_follow, List.filter_append, Log.query]
  · intro a m ha
    refine ⟨s.store.log.length, by rw [act_of_message s ha], fun later p size hp => ?_⟩
    refine Log.head_of_fetch ?_ hp size
    rw [messages_follow, messages_act, ha, List.append_assoc]
    simp [Log.length]

/-- The tenth message of a log is found at its offset, nine, after another append, a fetch from
beyond the end, a poll of no stream and a query that is refused. -/
theorem log_grows_mixed :
    let s : Session := ⟨⟨"@me", .default⟩, .ofLog Sample.mixed, []⟩
    let m := Sample.regularMessage 1
    let p : Predicate := .condition (.text .author Sample.bob)
    let size : PageSize := ⟨2, by decide⟩
    let later : List Action := [.append (Sample.regularMessage 2), .fetch p size (.offset 99),
      .request (.next "posts"), .call (.query ⟨⟨none, none, none, none, none⟩, none⟩ true)]
    (Action.append m).message? = some m ∧ p.holds m = true ∧
      (s.act (.append m)).1 = .offset 9 ∧
      ∃ page, ((s.act (.append m)).2.follow later).store.log.fetch p size (.offset 9) = .ok page ∧
        page.rows.head? = some m := by
  intro s m p size later
  have hp : p.holds m = true := by decide
  obtain ⟨o, ho, hfetch⟩ := s.log_grows.2.2.2 (.append m) m rfl
  cases ho
  exact ⟨rfl, hp, rfl, hfetch later p size hp⟩

end Session

end FeedQuery
