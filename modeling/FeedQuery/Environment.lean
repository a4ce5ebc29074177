import FeedQuery.Settings

/-!
Variables of the environment, files that overlay them, and the settings that they give.
-/
namespace FeedQuery

/-- What is wrong with a line of an environment file. -/
inductive EnvironmentError where
  | malformedLine (line : Nat)
  | emptyKey (line : Nat)
  deriving DecidableEq, Repr

def EnvironmentError.text : EnvironmentError → String
  | .malformedLine line =>
    "Invalid env file: malformed line " ++ toString line ++ " (expected KEY=VALUE)"
  | .emptyKey line => "Invalid env file: empty key at line " ++ toString line

/-- Gives a variable a value, in the place that it has already or behind all others. -/
def setVar (key value : String) : List (String × String) → List (String × String)
  | [] => [(key, value)]
  | (k, v) :: vars => if k = key then (k, value) :: vars else (k, v) :: setVar key value vars

theorem mem_keys_setVar {key value k : String} {vars : List (String × String)} :
    k ∈ (setVar key value vars).map Prod.fst ↔ k = key ∨ k ∈ vars.map Prod.fst := by
  induction vars with
  | nil => simp [setVar]
  | cons v vars ih =>
    simp only [setVar]
    split
    · rename_i h
      simp [← h]
    · simp only [List.map_cons, List.mem_cons, ih, or_left_comm]

theorem nodup_keys_setVar {key value : String} {vars : List (String × String)}
    (h : (vars.map Prod.fst).Nodup) : ((setVar key value vars).map Prod.fst).Nodup := by
  induction vars with
  | nil => simp [setVar]
  | cons v vars ih =>
    simp only [List.map_cons, List.nodup_cons] at h
    simp only [setVar]
    split
    · simpa using h
    · rename_i hne
      simp only [List.map_cons, List.nodup_cons, mem_keys_setVar, not_or]
      exact ⟨⟨hne, h.1⟩, ih h.2⟩

theorem lookup_setVar (key value k : String) (vars : List (String × String)) :
    (setVar key value vars).lookup k = if k = key then some value else vars.lookup k := by
  induction vars with
  | nil =>
    by_cases h : k = key
    · simp [setVar, h]
    · have hb : (k == key) = false := by simpa using h
      simp [setVar, List.lookup_cons, hb, h]
  | cons v vars ih =>
    obtain ⟨l, v⟩ := v
    simp only [setVar]
    by_cases hk : k = l
    · subst hk
      split <;> simp_all
    · have hb : (k == l) = false := by simpa using hk
      split
      · rename_i h
        simp [List.lookup_cons, hb, hk, ← h]
      · simp only [List.lookup_cons, hb, ih]

/-- Variables and their values, each variable once. -/
structure Environment where
  vars : List (String × String)
  nodup : (vars.map Prod.fst).Nodup

namespace Environment

def empty : Environment := ⟨[], .nil⟩

def get? (e : Environment) (key : String) : Option String := e.vars.lookup key

def set (e : Environment) (key value : String) : Environment :=
  ⟨setVar key value e.vars, nodup_keys_setVar e.nodup⟩

@[simp] theorem get?_empty (key : String) : empty.get? key = none := rfl

theorem get?_set (e : Environment) (key value k : String) :
    (e.set key value).get? k = if k = key then some value else e.get? k :=
  lookup_setVar key value k e.vars

def setAll (e : Environment) (pairs : List (String × String)) : Environment :=
  pairs.foldl (fun e (key, value) => e.set key value) e

def ofList (pairs : List (String × String)) : Environment := empty.setAll pairs

/-- The text between two equal quotes. -/
def inside? (quote : Char) (cs : List Char) : Option (List Char) :=
  match cs with
  | [] => none
  | c :: cs =>
    if c = quote ∧ cs.getLast? = some quote then some cs.dropLast else none

/-- Takes one pair of quotes off, double ones first. -/
def unquote (cs : List Char) : List Char :=
  (inside? '"' cs).getD ((inside? '\'' cs).getD cs)

/-- What a trimmed line says: nothing, when it is blank or a comment, or a variable's value. -/
def readLine (number : Nat) (cs : List Char) :
    Except EnvironmentError (Option (String × String)) :=
  match cs with
  | [] => .ok none
  | '#' :: _ => .ok none
  | cs =>
    match Text.cutOnce? '=' cs with
    | none => .error (.malformedLine number)
    | some (key, value) =>
      let key := Text.trimChars key
      if key = [] then .error (.emptyKey number)
      else .ok (some (String.ofList key, String.ofList (unquote (Text.trimChars value))))

/-- Reads lines from a line number on. -/
def readLines : Nat → List (List Char) → Except EnvironmentError (List (String × String))
  | _, [] => .ok []
  | n, line :: lines => do
    let pair? ← readLine n (Text.trimChars line)
    return pair?.toList ++ (← readLines (n + 1) lines)

/-- The variables that a file sets, line by line. -/
def readFile (text : String) : Except EnvironmentError (List (String × String)) :=
  readLines 1 (Text.cutChars '\n' text.toList)

/-- Overlays the variables of a file; a file that does not read changes nothing. -/
def load (e : Environment) (text : String) : Except EnvironmentError Environment := do
  return e.setAll (← readFile text)

/-- Loads a file in place: what that comes to, and the variables that it leaves. -/
def loadFile (e : Environment) (text : String) : Except EnvironmentError Unit × Environment :=
  match readFile text with
  | .error error => (.error error, e)
  | .ok pairs => (.ok (), e.setAll pairs)

theorem load_eq_map (e : Environment) (text : String) :
    e.load text = (e.loadFile text).1.map fun _ => (e.loadFile text).2 := by
  rw [load, loadFile]
  cases readFile text <;> rfl

/-- The variables after files that are loaded one after the other, read or not. -/
def loadFiles (e : Environment) : List String → Environment
  | [] => e
  | text :: texts => (e.loadFile text).2.loadFiles texts

def settings (e : Environment) : Except SettingsError Settings := Settings.ofVars e.vars

end Environment

end FeedQuery
