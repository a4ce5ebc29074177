import FeedQuery.Number.Numeral

/-!
JSON values, walking into objects, and equality. Fields of an object keep an order here; the
generic values of `FeedQuery.Json.Value` have their keys in increasing order, each once.
-/
namespace FeedQuery

inductive Json where
  | null
  | bool (b : Bool)
  | number (n : Number)
  | string (s : String)
  | array (items : List Json)
  | object (fields : List (String × Json))

namespace Json

instance : Inhabited Json := ⟨.null⟩

/-- The six kinds of JSON values, as messages to a client name them. -/
inductive Kind where
  | null | boolean | number | string | array | object
  deriving DecidableEq, Repr

def Kind.name : Kind → String
  | .null => "null"
  | .boolean => "boolean"
  | .number => "number"
  | .string => "string"
  | .array => "array"
  | .object => "object"

def kind : Json → Kind
  | .null => .null
  | .bool _ => .boolean
  | .number _ => .number
  | .string _ => .string
  | .array _ => .array
  | .object _ => .object

def isNull : Json → Bool
  | .null => true
  | _ => false

def isString : Json → Bool
  | .string _ => true
  | _ => false

def text? : Json → Option String
  | .string s => some s
  | _ => none

/-- The field of an object. Nothing else has fields, an array neither. -/
def get? (key : String) : Json → Option Json
  | .object fields => fields.lookup key
  | _ => none

/-- Follows field names into nested objects. -/
def walk? : List String → Json → Option Json
  | [], j => some j
  | key :: path, j => (j.get? key).bind (walk? path)

@[simp] theorem walk?_nil (j : Json) : walk? [] j = some j := rfl

@[simp] theorem walk?_cons (key : String) (path : List String) (j : Json) :
    walk? (key :: path) j = (j.get? key).bind (walk? path) := rfl

mutual

/-- Equality of JSON values: numbers as numbers of their kind, all else by structure. -/
def same : Json → Json → Bool
  | .null, .null => true
  | .bool a, .bool b => a == b
  | .number m, .number n => m.same n
  | .string s, .string t => s == t
  | .array xs, .array ys => sameItems xs ys
  | .object fs, .object gs => sameFields fs gs
  | _, _ => false

def sameItems : List Json → List Json → Bool
  | [], [] => true
  | x :: xs, y :: ys => same x y && sameItems xs ys
  | _, _ => false

def sameFields : List (String × Json) → List (String × Json) → Bool
  | [], [] => true
  | (k, x) :: fs, (l, y) :: gs => k == l && same x y && sameFields fs gs
  | _, _ => false

end

/-- Puts a field into its place among fields in key order, unless its key is already there. -/
def putAbsent (key : String) (value : Json) : List (String × Json) → List (String × Json)
  | [] => [(key, value)]
  | (k, v) :: fields =>
    if key < k then (key, value) :: (k, v) :: fields
    else if key = k then (k, v) :: fields
    else (k, v) :: putAbsent key value fields

mutual

/-- Every object in key order; of several fields with one key the last counts. -/
def sorted : Json → Json
  | .array items => .array (sortedItems items)
  | .object fields => .object (sortedFields fields)
  | j => j

def sortedItems : List Json → List Json
  | [] => []
  | j :: items => j.sorted :: sortedItems items

def sortedFields : List (String × Json) → List (String × Json)
  | [] => []
  | (k, v) :: fields => putAbsent k v.sorted (sortedFields fields)

end

mutual

/-- Whether every object has its keys in increasing order, each once. -/
def Sorted : Json → Prop
  | .array items => SortedItems items
  | .object fields => (fields.map Prod.fst).Pairwise (· < ·) ∧ SortedFields fields
  | _ => True

def SortedItems : List Json → Prop
  | [] => True
  | j :: items => j.Sorted ∧ SortedItems items

def SortedFields : List (String × Json) → Prop
  | [] => True
  | (_, v) :: fields => v.Sorted ∧ SortedFields fields

end

theorem mem_keys_putAbsent {key k : String} {value : Json} {fields : List (String × Json)} :
    k ∈ (putAbsent key value fields).map Prod.fst ↔ k = key ∨ k ∈ fields.map Prod.fst := by
  induction fields with
  | nil => simp [putAbsent]
  | cons f fields ih =>
    obtain ⟨l, v⟩ := f
    simp only [putAbsent]
    split
    · simp
    · split
      · subst_vars
        simp
      · simp only [List.map_cons, List.mem_cons, ih]
        constructor
        · rintro (h | h | h) <;> simp [h]
        · rintro (h | h | h) <;> simp [h]

theorem pairwise_keys_putAbsent {key : String} {value : Json} {fields : List (String × Json)}
    (h : (fields.map Prod.fst).Pairwise (· < ·)) :
    ((putAbsent key value fields).map Prod.fst).Pairwise (· < ·) := by
  induction fields with
  | nil => simp [putAbsent]
  | cons f fields ih =>
    obtain ⟨l, v⟩ := f
    simp only [List.map_cons, List.pairwise_cons] at h
    simp only [putAbsent]
    split
    · rename_i hlt
      simp only [List.map_cons, List.pairwise_cons]
      refine ⟨?_, h⟩
      rintro k (_ | ⟨_, hk⟩)
      · exact hlt
      · exact String.lt_trans hlt (h.1 k hk)
    · split
      · simpa using h
      · rename_i hlt hne
        simp only [List.map_cons, List.pairwise_cons]
        refine ⟨fun k hk => ?_, ih h.2⟩
        rcases mem_keys_putAbsent.1 hk with rfl | hk
        · exact (Std.lt_trichotomy l k).resolve_right (by rintro (h | h) <;> simp_all)
        · exact h.1 k hk

theorem sortedFields_putAbsent {key : String} {value : Json} {fields : List (String × Json)}
    (hv : value.Sorted) (h : SortedFields fields) : SortedFields (putAbsent key value fields) := by
  induction fields with
  | nil => exact ⟨hv, trivial⟩
  | cons f fields ih =>
    obtain ⟨l, v⟩ := f
    simp only [putAbsent]
    split
    · exact ⟨hv, h⟩
    · split
      · exact h
      · exact ⟨h.1, ih h.2⟩

theorem pairwise_keys_sortedFields (fields : List (String × Json)) :
    ((sortedFields fields).map Prod.fst).Pairwise (· < ·) := by
  induction fields with
  | nil => simp [sortedFields]
  | cons f fields ih => exact pairwise_keys_putAbsent ih

mutual

theorem sorted_sorted : (j : Json) → j.sorted.Sorted
  | .null | .bool _ | .number _ | .string _ => trivial
  | .array items => sortedItems_sortedItems items
  | .object fields => ⟨pairwise_keys_sortedFields fields, sortedFields_sortedFields fields⟩

theorem sortedItems_sortedItems : (items : List Json) → SortedItems (sortedItems items)
  | [] => trivial
  | j :: items => ⟨sorted_sorted j, sortedItems_sortedItems items⟩

theorem sortedFields_sortedFields :
    (fields : List (String × Json)) → SortedFields (sortedFields fields)
  | [] => trivial
  | (_, v) :: fields => sortedFields_putAbsent (sorted_sorted v) (sortedFields_sortedFields fields)

end

end Json

/-- A generic JSON value: every object has its keys in increasing order, each once. -/
structure Value where
  json : Json
  sorted : json.Sorted

namespace Value

def ofJson (j : Json) : Value := ⟨j.sorted, Json.sorted_sorted j⟩

def null : Value := ⟨.null, trivial⟩

def string (s : String) : Value := ⟨.string s, trivial⟩

@[simp] theorem json_null : null.json = .null := rfl

@[simp] theorem json_string (s : String) : (string s).json = .string s := rfl

instance : Inhabited Value := ⟨null⟩

/-- The items of an array. -/
def items? (v : Value) : Option (List Value) :=
  match v.json with
  | .array items => some (items.map ofJson)
  | _ => none

end Value

end FeedQuery
