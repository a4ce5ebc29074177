import FeedQuery.Log.Text
import FeedQuery.Service

/-!
Sessions: a service, its store and the open streams, and what each request to them answers. A
request that fails leaves the session as usable as before.
-/
namespace FeedQuery

/-- A lazy stream that a client holds. -/
inductive OpenStream where
  | pages (s : PageStream)
  | records (s : RecordStream)

structure Session where
  service : Service
  store : Store
  /-- The open streams under their names. -/
  streams : List (String × OpenStream)

/-- What a client opens a stream on. -/
inductive StreamSource where
  | pages (filter : String) (size : Nat)
  | records (filter : String) (size : Nat)
  | userPosts (id? : Option String)

/-- What a client asks of a session. Filters, queries, messages and cursors are JSON texts. -/
inductive Request where
  | append (message : String)
  | length
  | compile (filter : String)
  | query (query : String) (postsOnly : Bool)
  | userPosts (id? : Option String)
  | execute (filter : String) (size? : Option Nat)
  | fetch (filter : String) (size : Nat) (cursor : String)
  | openStream (name : String) (source : StreamSource)
  | next (name : String)
  | drain (name : String)
  | close (name : String)

/-- Why a request fails. -/
inductive Failure where
  | decode (e : DecodeError)
  | query (e : QueryError)
  | store (e : StoreError)
  | unknownStream
  | zeroSize

inductive Reply where
  | offset (n : Nat)
  | length (n : Nat)
  | predicate (p : Predicate)
  | messages (rows : List Message)
  | page (p : Page)
  | opened (streams : Nat)
  | nextPage (rows : List Message)
  | nextRecord (m : Message)
  | done
  | closed (wasOpen : Bool)
  | failed (f : Failure)

namespace Session

/-- A filter given as a text, compiled. -/
def readFilter (text : String) : Except Failure Predicate := do
  let filter ← (RawFilter.ofText text).mapError .decode
  (Service.compile filter).mapError .query

def readSize (n : Nat) : Except Failure PageSize :=
  match PageSize.ofNat? n with
  | some size => .ok size
  | none => .error .zeroSize

def openSource (s : Session) : StreamSource → Except Failure OpenStream
  | .pages filter size => do
    let p ← readFilter filter
    return .pages (.start p (← readSize size))
  | .records filter size => do
    let p ← readFilter filter
    return .records (.start p (← readSize size))
  | .userPosts id? => return .records (s.service.userPostsStream id?)

/-- The streams without the one of a name. -/
def without (name : String) (streams : List (String × OpenStream)) : List (String × OpenStream) :=
  streams.filter fun (n, _) => n != name

def setStream (s : Session) (name : String) (stream : OpenStream) : Session :=
  ⟨s.service, s.store, (name, stream) :: without name s.streams⟩

def setStore (s : Session) (store : Store) : Session := ⟨s.service, store, s.streams⟩

def ofPoll {α : Type} (item : α → Reply) : Poll α → Reply
  | .item a => item a
  | .done => .done
  | .failed e => .failed (.store e)

def ofRows : Except Failure (List Message) → Reply
  | .ok rows => .messages rows
  | .error f => .failed f

/-- Asks a stream for its next item. -/
def poll (s : Session) (name : String) : OpenStream → Reply × Session
  | .pages stream =>
    let (answer, stream, store) := stream.next s.store
    (ofPoll .nextPage answer, (s.setStore store).setStream name (.pages stream))
  | .records stream =>
    let (answer, stream, store) := stream.next s.store
    (ofPoll .nextRecord answer, (s.setStore store).setStream name (.records stream))

/-- Removes a stream and takes all that is left in it. -/
def takeAll (s : Session) (name : String) (stream : OpenStream) : Reply × Session :=
  let (rows, store) := match stream with
    | .pages stream => stream.drain s.store
    | .records stream => stream.drain s.store
  (ofRows (rows.mapError .store), ⟨s.service, store, without name s.streams⟩)

/-- A run on the store whose parameters may be refused before it is touched. -/
def onStore (s : Session) (run : Except Failure (Store → Reply × Store)) : Reply × Session :=
  match run with
  | .error f => (.failed f, s)
  | .ok run =>
    let (reply, store) := run s.store
    (reply, s.setStore store)

def queryReply (run : Store → Except QueryError (List Message) × Store) (store : Store) :
    Reply × Store :=
  let (rows, store) := run store
  (ofRows (rows.mapError .query), store)

/-- Runs a predicate at once or page by page, its failures being those of a query. -/
def executeReply (p : Predicate) (size? : Option PageSize) (store : Store) : Reply × Store :=
  queryReply (fun store =>
    let (rows, store) := store.run p size?
    (rows.mapError .store, store)) store

def fetchReply (p : Predicate) (size : PageSize) (cursor : Cursor) (store : Store) :
    Reply × Store :=
  match store.fetch p size cursor with
  | (.ok page, store) => (.page page, store)
  | (.error e, store) => (.failed (.store e), store)

def answer (s : Session) : Request → Reply × Session
  | .append text =>
    match Message.ofText text with
    | .error e => (.failed (.decode e), s)
    | .ok m => (.offset s.store.log.length, s.setStore (s.store.append m))
  | .length => (.length s.store.log.length, s)
  | .compile filter =>
    match readFilter filter with
    | .error f => (.failed f, s)
    | .ok p => (.predicate p, s)
  | .query text postsOnly => s.onStore do
    let q ← (Query.ofText text).mapError fun e => .query (.decode e)
    return queryReply (if postsOnly then s.service.queryPosts q else s.service.queryMessages q)
  | .userPosts id? => s.onStore (.ok (queryReply (s.service.userPosts id?)))
  | .execute filter size? => s.onStore do
    let p ← readFilter filter
    return executeReply p (← size?.mapM readSize)
  | .fetch filter size cursor => s.onStore do
    let p ← readFilter filter
    let cursor ← (Cursor.ofText cursor).mapError .decode
    return fetchReply p (← readSize size) cursor
  | .openStream name source =>
    match s.openSource source with
    | .error f => (.failed f, s)
    | .ok stream =>
      let s := s.setStream name stream
      (.opened s.streams.length, s)
  | .next name =>
    match s.streams.lookup name with
    | none => (.failed .unknownStream, s)
    | some stream => s.poll name stream
  | .drain name =>
    match s.streams.lookup name with
    | none => (.failed .unknownStream, s)
    | some stream => s.takeAll name stream
  | .close name =>
    (.closed (s.streams.lookup name).isSome, ⟨s.service, s.store, without name s.streams⟩)

/-- Answers requests in order. -/
def answerAll (s : Session) : List Request → List Reply × Session
  | [] => ([], s)
  | r :: rs =>
    let (reply, s) := s.answer r
    let (replies, s) := s.answerAll rs
    (reply :: replies, s)

end Session

end FeedQuery
