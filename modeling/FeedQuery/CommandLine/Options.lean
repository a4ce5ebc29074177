import FeedQuery.Text.Lines
import FeedQuery.Text.Word

/-!
Command line options: what a program takes at one level, before or after the name of a command, and
the reading of arguments up to the next command name.
-/
namespace FeedQuery.CommandLine

/-- What the value of an option must be. A flag has none. -/
inductive OptionKind where
  | flag
  | text
  /-- A nonempty path. -/
  | path
  | word
  deriving DecidableEq, Repr

structure OptionSpec where
  name : String
  kind : OptionKind

/-- Why arguments are not run. Help and version are given as soon as they are asked for. -/
inductive Refusal where
  | help
  | version
  | usage
  deriving DecidableEq, Repr

/-- What can stand at one level of a command line. -/
structure Level where
  options : List OptionSpec
  commands : List String
  /-- Whether the version can be asked for here. -/
  hasVersion : Bool

/-- Options that were given, with their values. -/
abbrev Given := List (String × String)

namespace OptionKind

def accepts (value : String) : OptionKind → Bool
  | .flag => false
  | .text => true
  | .path => value != ""
  | .word => (Text.word? value).isSome

end OptionKind

/-- Whether an argument looks like an option; a lone dash does not. -/
def looksLikeOption (arg : String) : Bool :=
  match arg.toList with
  | '-' :: _ :: _ => true
  | _ => false

/-- Records an option, which may be given once. -/
def give (name value : String) (given : Given) : Except Refusal Given :=
  if (given.lookup name).isSome then .error .usage else .ok ((name, value) :: given)

namespace Level

/-- A one-letter option. Only help and version have one. -/
def short (l : Level) : Char → Refusal
  | 'h' => .help
  | 'V' => if l.hasVersion then .version else .usage
  | _ => .usage

/-- The parts of a long option: its name, and the value after an equals sign. -/
def splitLong (cs : List Char) : String × Option String :=
  match Text.cutOnce? '=' cs with
  | none => (String.ofList cs, none)
  | some (name, value) => (String.ofList name, some (String.ofList value))

/-- What a long option asks for: its specification, or a refusal. -/
def long (l : Level) (name : String) (value? : Option String) : Except Refusal OptionSpec :=
  if name = "help" ∧ value? = none then .error .help
  else if name = "version" ∧ value? = none ∧ l.hasVersion then .error .version
  else match l.options.find? (·.name == name) with
    | none => .error .usage
    | some spec => .ok spec

/-- Records a value for an option. -/
def take (spec : OptionSpec) (value : String) (given : Given) : Except Refusal Given :=
  if spec.kind.accepts value then give spec.name value given else .error .usage

/-- Reads the options at the front of the arguments. Gives the command that follows them and its
arguments, if there is one. Nothing may follow a double dash. -/
def read (l : Level) (given : Given) :
    List String → Except Refusal (Given × Option (String × List String))
  | [] => .ok (given, none)
  | arg :: args =>
    if l.commands.contains arg then .ok (given, some (arg, args))
    else match arg.toList with
      | ['-', '-'] => if args.isEmpty then .ok (given, none) else .error .usage
      | '-' :: '-' :: cs =>
        let (name, value?) := splitLong cs
        match l.long name value? with
        | .error r => .error r
        | .ok spec =>
          match spec.kind, value? with
          | .flag, none => do l.read (← give spec.name "" given) args
          | .flag, some _ => .error .usage
          | _, some value => do l.read (← take spec value given) args
          | _, none =>
            match args with
            | [] => .error .usage
            | value :: args =>
              if looksLikeOption value then .error .usage
              else do l.read (← take spec value given) args
      | '-' :: c :: _ => .error (l.short c)
      | _ => .error .usage

end Level

end FeedQuery.CommandLine
