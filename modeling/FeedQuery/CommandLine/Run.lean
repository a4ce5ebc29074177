import FeedQuery.CommandLine.Command
import FeedQuery.Environment
import FeedQuery.Log.Text
import FeedQuery.Service

/-!
What the program does for a command: its output, or why it fails. Files are read through a given
function; an unreadable file has no text.
-/
namespace FeedQuery.CommandLine

inductive CommandError where
  | io (reason : String)
  | filterParse (e : DecodeError)
  | query (e : QueryError)
  | store (e : StoreError)
  | configuration (reason : String)
  | missingFilter

namespace CommandError

def text : CommandError → String
  | .io reason => "I/O error: " ++ reason
  | .filterParse e => "Failed to parse the filter as JSON: " ++ e.text
  | .query e => "Failed to run the query: " ++ e.text
  | .store e => "Failed to load the message log: " ++ e.text
  | .configuration reason => "Invalid configuration: " ++ reason
  | .missingFilter => "Either --filter or --filter-file is required"

end CommandError

/-- What a command puts out: text on the standard output, or the content of a file. -/
inductive Output where
  | print (text : String)
  | write (path content : String)
  deriving DecidableEq, Repr

/-- The texts of files. -/
abbrev Files := String → Option String

def unreadable (path : String) : String := "cannot read " ++ path

def jsonText (pretty : Bool) (j : Json) : String := if pretty then j.pretty else j.compact

def messagesText (pretty : Bool) (rows : List Message) : String :=
  jsonText pretty (.array (rows.map Message.toJson))

def readFilter (files : Files) (source : FilterSource) : Except CommandError RawFilter := do
  let text ← match source with
    | .inline text => pure text
    | .file path => match files path with
      | some text => pure text
      | none => throw (.io (unreadable path))
    | .missing => throw .missingFilter
  (RawFilter.ofText text).mapError .filterParse

/-- A service over a log file. The file has no owner, so the identity comes from the settings. -/
def openService (files : Files) (path : String) (settings : Settings) :
    Except CommandError (Service × Store) := do
  let some text := files path | throw (.store (.io (unreadable path)))
  let log ← (Log.ofText text).mapError .store
  (Service.init ⟨"", some (.ofLog log)⟩ settings).mapError .query

def padRight (width : Nat) (s : String) : String :=
  s ++ String.ofList (List.replicate (width - s.length) ' ')

def operatorLine (e : OperatorEntry) : String :=
  padRight 14 e.operator.name ++ " " ++ padRight 16 e.arity.text ++ " " ++
    e.operator.boundField?.getD "-" ++ "\n"

/-- What is known of a filter that compiles. -/
def report (f : Filter) : Json :=
  .object [("depth", .number (.ofNat f.depth)), ("leaves", .number (.ofNat f.leafCount)),
    ("valid", .bool true), ("where", f.toJson.sorted)]

def runQuery (files : Files) (settings : Settings) (pretty : Bool) (log : String)
    (source : FilterSource) (paginate? : Option UInt64) (postsOnly : Bool)
    (output? : Option String) : Except CommandError Output := do
  let filter ← readFilter files source
  let (service, store) ← openService files log settings
  let query := ⟨filter, paginate?⟩
  let (rows, _) :=
    if postsOnly then service.queryPosts query store else service.queryMessages query store
  let text := messagesText pretty (← rows.mapError .query)
  return match output? with
    | some path => .write path text
    | none => .print (text ++ "\n")

def runPosts (files : Files) (settings : Settings) (pretty : Bool) (log : String)
    (author? : Option String) (stream : Bool) : Except CommandError Output := do
  if author?.isNone && settings.selfId?.isNone then
    throw (.configuration "no --author given and FEEDQ_SELF_ID is not set")
  let (service, store) ← openService files log settings
  if stream then
    let (rows, _) := (service.userPostsStream author?).drain store
    let rows ← rows.mapError fun e => .store e
    return .print (String.join (rows.map fun m => m.line ++ "\n"))
  else
    let (rows, _) := service.userPosts author? store
    return .print (messagesText pretty (← rows.mapError .query) ++ "\n")

def runCheck (files : Files) (pretty : Bool) (source : FilterSource) :
    Except CommandError Output := do
  let raw ← readFilter files source
  let filter ← (raw.check .root).mapError fun e => .query (.compile (.ofShape e))
  let _ ← filter.compile.mapError fun e => .query (.compile e)
  return .print (jsonText pretty (report filter) ++ "\n")

def Command.run (files : Files) (settings : Settings) (pretty : Bool) :
    Command → Except CommandError Output
  | .query log filter paginate? postsOnly output? =>
    runQuery files settings pretty log filter paginate? postsOnly output?
  | .posts log author? stream => runPosts files settings pretty log author? stream
  | .check filter => runCheck files pretty filter
  | .operators => return .print (String.join (OperatorEntry.all.map operatorLine))

/-- The environment with the file that the invocation names, if any. -/
def Invocation.environment (i : Invocation) (files : Files) (env : Environment) :
    Except CommandError Environment := do
  match i.envFile? with
  | none => return env
  | some path =>
    let some text := files path
      | throw (.configuration ("Failed to read env file " ++ path))
    (env.load text).mapError fun e => .configuration e.text

/-- Runs an invocation: its environment file first, then the settings, then the command. -/
def Invocation.run (i : Invocation) (files : Files) (env : Environment) :
    Except CommandError Output := do
  let env ← i.environment files env
  let settings ← env.settings.mapError fun e => .query (.settings e)
  i.command.run files settings i.pretty

/-- The files that an invocation may read. -/
def Invocation.inputs (i : Invocation) : List String :=
  i.envFile?.toList ++ match i.command with
    | .query log (.file path) _ _ _ => [path, log]
    | .query log _ _ _ _ => [log]
    | .posts log _ _ => [log]
    | .check (.file path) => [path]
    | _ => []

def versionText : String := "feedq 0.1.0\n"

end FeedQuery.CommandLine
