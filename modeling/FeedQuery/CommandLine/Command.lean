import FeedQuery.CommandLine.Options

/-!
The commands of the program and their arguments.
-/
namespace FeedQuery.CommandLine

/-- Where a filter comes from. -/
inductive FilterSource where
  | inline (text : String)
  | file (path : String)
  | missing
  deriving DecidableEq, Repr

inductive Command where
  | query (log : String) (filter : FilterSource) (paginate? : Option UInt64) (postsOnly : Bool)
      (output? : Option String)
  | posts (log : String) (author? : Option String) (stream : Bool)
  | check (filter : FilterSource)
  | operators
  deriving DecidableEq, Repr

/-- A command with the options that every command takes. -/
structure Invocation where
  envFile? : Option String
  pretty : Bool
  command : Command
  deriving DecidableEq, Repr

def globalOptions : List OptionSpec := [⟨"env-file", .path⟩, ⟨"pretty", .flag⟩]

def filterOptions : List OptionSpec := [⟨"filter", .text⟩, ⟨"filter-file", .path⟩]

/-- The options of each command. -/
def commandOptions : List (String × List OptionSpec) :=
  [("query", [⟨"log", .path⟩] ++ filterOptions ++
      [⟨"paginate", .word⟩, ⟨"posts", .flag⟩, ⟨"output", .path⟩]),
    ("posts", [⟨"log", .path⟩, ⟨"author", .text⟩, ⟨"stream", .flag⟩]),
    ("check", filterOptions),
    ("operators", [])]

def topLevel : Level :=
  ⟨globalOptions, commandOptions.map Prod.fst ++ ["help"], true⟩

def commandLevel (options : List OptionSpec) : Level := ⟨options ++ globalOptions, [], false⟩

/-- Arguments of the help command: the command to explain, if any. -/
def readHelp : List String → Refusal
  | [] => .help
  | [name] => if topLevel.commands.contains name then .help else .usage
  | _ => .usage

def filterSource (given : Given) : Except Refusal FilterSource :=
  match given.lookup "filter", given.lookup "filter-file" with
  | some _, some _ => .error .usage
  | some text, none => .ok (.inline text)
  | none, some path => .ok (.file path)
  | none, none => .ok .missing

def required (name : String) (given : Given) : Except Refusal String :=
  match given.lookup name with
  | some value => .ok value
  | none => .error .usage

def hasFlag (name : String) (given : Given) : Bool := (given.lookup name).isSome

def readCommand (name : String) (given : Given) : Except Refusal Command :=
  match name with
  | "query" => do
    let log ← required "log" given
    let filter ← filterSource given
    let paginate? := ((given.lookup "paginate").bind Text.word?).map UInt64.ofNat
    return .query log filter paginate? (hasFlag "posts" given) (given.lookup "output")
  | "posts" => do
    let log ← required "log" given
    return .posts log (given.lookup "author") (hasFlag "stream" given)
  | "check" => do return .check (← filterSource given)
  | _ => .ok .operators

/-- Reads all arguments. Options for every command may stand before and after its name; of two
environment files the one after it counts. -/
def Invocation.ofArgs (args : List String) : Except Refusal Invocation := do
  let (before, next?) ← topLevel.read [] args
  let some (name, args) := next? | throw .usage
  let some options := commandOptions.lookup name | throw (readHelp args)
  let (given, _) ← (commandLevel options).read [] args
  let command ← readCommand name given
  let envFile? := (given.lookup "env-file").or (before.lookup "env-file")
  return ⟨envFile?, hasFlag "pretty" given || hasFlag "pretty" before, command⟩

end FeedQuery.CommandLine
