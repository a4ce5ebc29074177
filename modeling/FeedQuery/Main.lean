import FeedQuery.CommandLine.Run

/-!
The program: reads the files that an invocation names, runs it, and puts its output out.
-/
namespace FeedQuery.CommandLine

def usage : String :=
  "Usage: feedq [--env-file FILE] [--pretty] query|posts|check|operators [OPTIONS]\n"

/-- The text of a file, if it can be read. -/
def readText? (path : String) : IO (Option String) := do
  try return some (← IO.FS.readFile path) catch _ => return none

/-- The variables of the process that settings are read from. -/
def processEnvironment : IO Environment := do
  let mut env := Environment.empty
  for key in [Settings.pageSizeKey, Settings.maximumKey, Settings.selfIdKey] do
    if let some value ← IO.getEnv key then env := env.set key value
  return env

def fail (e : CommandError) : IO UInt32 := do
  IO.eprintln ("Error: " ++ e.text)
  return 1

def perform : Output → IO UInt32
  | .print text => do
    IO.print text
    return 0
  | .write path content => do
    try
      IO.FS.writeFile path content
      return 0
    catch _ => fail (.io ("cannot write " ++ path))

end FeedQuery.CommandLine

open FeedQuery CommandLine

def main (args : List String) : IO UInt32 := do
  match Invocation.ofArgs args with
  | .error .help => IO.print usage; return 0
  | .error .version => IO.print versionText; return 0
  | .error .usage => IO.eprint usage; return 2
  | .ok i =>
    let texts ← i.inputs.mapM fun path => return (path, ← readText? path)
    let files : Files := fun path => (texts.lookup path).join
    match i.run files (← processEnvironment) with
    | .error e => fail e
    | .ok output => perform output
