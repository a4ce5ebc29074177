import FeedQuery.Proofs.Service.Pagination

/-!
The ways to ask for posts: a query for posts only is the query for messages with everything else
left out, and the posts of a feed are the same list however they are asked for.
-/
namespace FeedQuery

namespace RawFilter

/-- A leaf that tests a text of the message. -/
def textLeaf (t : TextOperator) (text : String) : RawFilter :=
  ⟨none, none, some t.name, some (.string text), none⟩

/-- A node that holds when all its children do. -/
def every (children : List RawFilter) : RawFilter := ⟨some children, none, none, none, none⟩

theorem compile_textLeaf (t : TextOperator) (text : String) :
    (textLeaf t text).compile = .ok (.condition (.text t text)) := by
  cases t <;> rfl

/-- All posts of a feed, as a client asks for them with a filter. -/
def postsBy (id : String) : RawFilter := every [textLeaf .type "post", textLeaf .author id]

theorem compile_postsBy (id : String) : (postsBy id).compile = .ok (.postsBy id) := rfl

end RawFilter

namespace Message

def isPost (m : Message) : Bool := m.type? == some "post"

end Message

theorem Log.query_ofPosts (l : Log) (p : Predicate) :
    l.query p.ofPosts = (l.query p).filter Message.isPost := by
  rw [query, query, List.filter_filter]
  refine List.filter_congr fun m _ => ?_
  simp [Predicate.ofPosts, Predicate.holds, Condition.holds, TextOperator.holds, Message.isPost]

/-- The posts of a feed. -/
def Log.postsOf (l : Log) (id : String) : List Message :=
  l.messages.filter fun m => m.isPost && m.author == id

theorem Log.query_postsBy (l : Log) (id : String) : l.query (.postsBy id) = l.postsOf id := by
  refine List.filter_congr fun m _ => ?_
  simp [Predicate.postsBy, Predicate.ofPosts, Predicate.holds, Condition.holds, TextOperator.holds,
    Message.isPost]

namespace Service

variable {s : Service} {store : Store}

theorem allow_of_admissible {settings : Settings} {paginate? : Option UInt64}
    (h : ∀ n ∈ paginate?, 1 ≤ n.toNat ∧ n.toNat ≤ settings.maximum.val) :
    ∃ size?, settings.allow (paginate?.map UInt64.toNat) = .ok size? := by
  cases paginate? with
  | none => exact ⟨none, rfl⟩
  | some n =>
    obtain ⟨hpos, hle⟩ := h n rfl
    exact ⟨_, Settings.allow_of_le hpos hle⟩

/-- A run gives all matches, unless its page size is not allowed. -/
theorem run_fst (s : Service) (p : Predicate) (paginate? : Option UInt64)
    (hk : store.failAt? = none) : (s.run p paginate? store).1 =
      ((s.settings.allow (paginate?.map UInt64.toNat)).mapError QueryError.pageSize).map
        fun _ => store.log.query p := by
  unfold run
  cases s.settings.allow (paginate?.map UInt64.toNat) with
  | error e => rfl
  | ok size? =>
    cases size? with
    | none => rfl
    | some size =>
      simp only [Store.run_of_spares (Store.spares_of_failAt?_eq_none hk _)]
      rfl

theorem queryMessages_of_ok {filter : RawFilter} {p : Predicate} {paginate? : Option UInt64}
    (hc : filter.compile = .ok p) (hk : store.failAt? = none)
    (h : ∀ n ∈ paginate?, 1 ≤ n.toNat ∧ n.toNat ≤ s.settings.maximum.val) :
    (s.queryMessages ⟨filter, paginate?⟩ store).1 = .ok (store.log.query p) := by
  obtain ⟨size?, hsize⟩ := allow_of_admissible h
  simp only [queryMessages, compile_of_ok hc, run_fst s p paginate? hk, hsize]
  rfl

/-- A query for posts gives the posts among the messages, and fails as the query for messages
does. -/
theorem queryPosts_fst (s : Service) (q : Query) (hk : store.failAt? = none) :
    (s.queryPosts q store).1 = (s.queryMessages q store).1.map (List.filter Message.isPost) := by
  unfold queryPosts queryMessages
  cases compile q.filter with
  | error e => rfl
  | ok p =>
    dsimp only
    rw [run_fst s _ _ hk, run_fst s _ _ hk, Log.query_ofPosts]
    cases s.settings.allow (q.paginate?.map UInt64.toNat) <;> rfl

theorem drain_userPostsStream (s : Service) (id? : Option String) {store : Store}
    (hk : store.failAt? = none) :
    ((s.userPostsStream id?).drain store).1 =
      .ok (store.log.query (.postsBy (id?.getD s.selfId))) := by
  have hdrain : (PageStream.start (.postsBy (id?.getD s.selfId)) s.settings.pageSize).drain store =
    _ := Store.run_of_spares (Store.spares_of_failAt?_eq_none hk _)
  rw [userPostsStream, RecordStream.drain]
  simp only [RecordStream.start, hdrain]
  rfl

/-- A query for posts gives the posts among the messages of the same query, or its error. The posts
of a feed are the same at once, as a stream that is taken to its end, as a query for posts by its
author, and as a query for messages by type and author, with any page size that is allowed. -/
theorem posts_agree (s : Service) (l : Log) (accesses : List Access) :
    let store : Store := ⟨l, none, accesses⟩
    (∀ q, (s.queryPosts q store).1 =
      (s.queryMessages q store).1.map (List.filter Message.isPost)) ∧
    ∀ id?,
      let id := id?.getD s.selfId
      (s.userPosts id? store).1 = .ok (l.postsOf id) ∧
      ((s.userPostsStream id?).drain store).1 = .ok (l.postsOf id) ∧
      ∀ paginate?, (∀ n ∈ paginate?, 1 ≤ n.toNat ∧ n.toNat ≤ s.settings.maximum.val) →
        (s.queryPosts ⟨.textLeaf .author id, paginate?⟩ store).1 = .ok (l.postsOf id) ∧
        (s.queryMessages ⟨.postsBy id, paginate?⟩ store).1 = .ok (l.postsOf id) := by
  intro store
  refine ⟨fun q => queryPosts_fst s q rfl, fun id? => ?_⟩
  intro id
  rw [← Log.query_postsBy]
  refine ⟨rfl, drain_userPostsStream s id? rfl, fun paginate? h => ⟨?_, ?_⟩⟩
  · rw [queryPosts_fst s _ rfl,
      queryMessages_of_ok (RawFilter.compile_textLeaf .author id) rfl h]
    exact congrArg Except.ok (Log.query_ofPosts l _).symm
  · exact queryMessages_of_ok (RawFilter.compile_postsBy id) rfl h

/-- The posts of the feed that a service is bound to, one a page. -/
theorem posts_agree_mixed :
    let s : Service := ⟨Sample.alice, .default⟩
    (∀ n ∈ some (1 : UInt64), 1 ≤ n.toNat ∧ n.toNat ≤ s.settings.maximum.val) ∧
      (s.queryPosts ⟨.textLeaf .author Sample.alice, some 1⟩ ⟨Sample.mixed, none, []⟩).1 =
        .ok (Sample.mixed.postsOf Sample.alice) := by
  intro s
  have hone : ∀ n ∈ some (1 : UInt64), 1 ≤ n.toNat ∧ n.toNat ≤ s.settings.maximum.val := by
    rintro n ⟨⟩
    decide
  exact ⟨hone, (((posts_agree s Sample.mixed []).2 none).2.2 (some 1) hone).1⟩

end Service

end FeedQuery
