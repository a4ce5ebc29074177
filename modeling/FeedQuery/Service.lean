import FeedQuery.Query

/-!
The query service over a host's message store: queries by filter, and the posts of a feed.
-/
namespace FeedQuery

/-- What a service is bound to: an identity, which may be empty, and a store, if there is one. -/
structure Host where
  id : String
  store? : Option Store

structure Service where
  selfId : String
  settings : Settings

namespace Predicate

/-- All messages of the post type that satisfy a predicate. -/
def ofPosts (p : Predicate) : Predicate := .combine .and [.condition (.text .type "post"), p]

/-- All posts of a feed. -/
def postsBy (id : String) : Predicate := ofPosts (.condition (.text .author id))

end Predicate

namespace Service

/-- Binds a service to a host. The host's own identity wins over the one in the settings. -/
def init (host : Host) (settings : Settings) : Except QueryError (Service × Store) := do
  let some store := host.store? | throw .unsupportedHost
  let settings ← settings.validate.mapError .settings
  let selfId := if host.id = "" then settings.selfId?.getD "" else host.id
  return (⟨selfId, settings⟩, store)

def compile (filter : RawFilter) : Except QueryError Predicate := filter.compile.mapError .compile

/-- Runs a predicate if the page size of the request is allowed. -/
def run (s : Service) (p : Predicate) (paginate? : Option UInt64) (store : Store) :
    Except QueryError (List Message) × Store :=
  match s.settings.allow (paginate?.map UInt64.toNat) with
  | .error e => (.error (.pageSize e), store)
  | .ok size? =>
    let (rows, store) := store.run p size?
    (rows.mapError .store, store)

/-- The messages that a query asks for. -/
def queryMessages (s : Service) (q : Query) (store : Store) :
    Except QueryError (List Message) × Store :=
  match compile q.filter with
  | .error e => (.error e, store)
  | .ok p => s.run p q.paginate? store

/-- The posts among the messages that a query asks for. -/
def queryPosts (s : Service) (q : Query) (store : Store) :
    Except QueryError (List Message) × Store :=
  match compile q.filter with
  | .error e => (.error e, store)
  | .ok p => s.run p.ofPosts q.paginate? store

/-- The posts of a feed, of the service's own without an identity. -/
def userPosts (s : Service) (id? : Option String) (store : Store) :
    Except QueryError (List Message) × Store :=
  let (rows, store) := store.run (.postsBy (id?.getD s.selfId)) none
  (rows.mapError .store, store)

def userPostsStream (s : Service) (id? : Option String) : RecordStream :=
  .start (.postsBy (id?.getD s.selfId)) s.settings.pageSize

end Service

end FeedQuery
