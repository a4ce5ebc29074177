import FeedQuery.Paging
import FeedQuery.Text.Lines
import FeedQuery.Text.Word

/-!
Settings of a query service: their keys, how they are read from variables, and the page sizes that
they allow.
-/
namespace FeedQuery

/-- What is wrong with settings. -/
inductive SettingsError where
  | notPositive (key value : String)
  | aboveMaximum (size maximum : PageSize)
  /-- A reason that a host gives. -/
  | refused (reason : String)

def SettingsError.text : SettingsError → String
  | .notPositive key value => key ++ " must be a positive integer, got '" ++ value ++ "'"
  | .aboveMaximum size maximum =>
    "default page size " ++ size.text ++ " exceeds maximum " ++ maximum.text
  | .refused reason => reason

/-- What is wrong with the page size of a request. -/
inductive PageSizeFault where
  | zero
  | aboveMaximum (maximum : PageSize)
  /-- A reason that a host gives. -/
  | refused (reason : String)

def PageSizeFault.text : PageSizeFault → String
  | .zero => "page size must be positive"
  | .aboveMaximum maximum => "maximum is " ++ maximum.text
  | .refused reason => reason

structure PageSizeError where
  size : Nat
  fault : PageSizeFault

def PageSizeError.text (e : PageSizeError) : String :=
  "Invalid page size " ++ toString e.size ++ ": " ++ e.fault.text

structure Settings where
  /-- The size of the pages that streams of posts fetch. -/
  pageSize : PageSize
  /-- The largest page that a request may ask for. -/
  maximum : PageSize
  /-- The identity of a host that has none of its own. -/
  selfId? : Option String
  deriving DecidableEq

namespace Settings

def default : Settings := ⟨⟨100, by decide⟩, ⟨10000, by decide⟩, none⟩

def pageSizeKey : String := "FEEDQ_PAGE_SIZE"

def maximumKey : String := "FEEDQ_MAX_PAGE_SIZE"

def selfIdKey : String := "FEEDQ_SELF_ID"

/-- The page size in a variable. -/
def readSize (key value : String) : Except SettingsError PageSize :=
  match (Text.word? value).bind PageSize.ofNat? with
  | some size => .ok size
  | none => .error (.notPositive key value)

/-- Takes one variable over. Values are trimmed, an empty identity is none, other keys mean
nothing. -/
def set (s : Settings) (key value : String) : Except SettingsError Settings :=
  let value := Text.trim value
  if key = pageSizeKey then (readSize key value).map (⟨·, s.maximum, s.selfId?⟩)
  else if key = maximumKey then (readSize key value).map (⟨s.pageSize, ·, s.selfId?⟩)
  else if key = selfIdKey ∧ value ≠ "" then .ok ⟨s.pageSize, s.maximum, some value⟩
  else .ok s

def validate (s : Settings) : Except SettingsError Settings :=
  if s.maximum.val < s.pageSize.val then .error (.aboveMaximum s.pageSize s.maximum) else .ok s

/-- Takes variables over one after the other. -/
def setAll : Settings → List (String × String) → Except SettingsError Settings
  | s, [] => .ok s
  | s, (key, value) :: vars => do
    (← s.set key value).setAll vars

/-- The settings that variables give, later ones winning. -/
def ofVars (vars : List (String × String)) : Except SettingsError Settings := do
  (← default.setAll vars).validate

def withPageSize (s : Settings) (size : PageSize) : Settings := ⟨size, s.maximum, s.selfId?⟩

def withSelfId (s : Settings) (id : String) : Settings := ⟨s.pageSize, s.maximum, some id⟩

/-- The page size of a request, which may ask for none. -/
def allow (s : Settings) : Option Nat → Except PageSizeError (Option PageSize)
  | none => .ok none
  | some n => match PageSize.ofNat? n with
    | none => .error ⟨n, .zero⟩
    | some size => if s.maximum.val < size.val then .error ⟨n, .aboveMaximum s.maximum⟩
      else .ok (some size)

end Settings

end FeedQuery
