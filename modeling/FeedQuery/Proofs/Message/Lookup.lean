import FeedQuery.Message.Codec
import FeedQuery.Proofs.Json.Fields

/-!
Looking a path up in a message is walking it through the JSON form of the message, object by object.
The message as a whole, its signed part as a whole and its flags are not looked at.
-/
namespace FeedQuery

namespace Json

variable {j v w : Json} {name : String} {path : List String}

/-- An object with a given field. -/
def HasField (j : Json) (name : String) (v : Json) : Prop :=
  ∃ fields, j = .object fields ∧ fields.lookup name = some v

theorem get?_eq_some_iff : j.get? name = some v ↔ j.HasField name v := by
  cases j <;> simp [get?, HasField]

/-- What a path of field names leads to, through one object after the other. -/
inductive Reaches : Json → List String → Json → Prop where
  | here (j : Json) : Reaches j [] j
  | field {j v w : Json} {name : String} {path : List String} (head : j.HasField name v)
      (tail : Reaches v path w) : Reaches j (name :: path) w

theorem walk?_eq_some_iff : j.walk? path = some w ↔ j.Reaches path w := by
  constructor
  · intro h
    induction path generalizing j with
    | nil =>
      cases h
      exact .here w
    | cons name path ih =>
      rw [walk?_cons, Option.bind_eq_some_iff] at h
      obtain ⟨v, hv, hw⟩ := h
      exact .field (get?_eq_some_iff.1 hv) (ih hw)
  · intro h
    induction h with
    | here j => rfl
    | field head tail ih => rw [walk?_cons, get?_eq_some_iff.2 head, Option.bind_some, ih]

end Json

namespace Message

/-- The paths that are looked up at all. -/
def Searched (path : List String) : Prop :=
  path ≠ [] ∧ path ≠ ["value"] ∧ path.head? ≠ some "meta"

instance (path : List String) : Decidable (Searched path) := by
  unfold Searched
  infer_instance

theorem entryField?_eq_get? (m : Message) (name : String) :
    m.entryField? name = m.entry.toJson.get? name := by
  simp only [Entry.toJson, Json.get?_object_cons, Json.get?_object_nil]
  unfold entryField?
  split <;> simp_all

theorem get?_toJson (m : Message) (name : String) : m.toJson.get? name =
    if name = "key" then some (.string m.key)
    else if name = "value" then some m.entry.toJson
    else if name = "timestamp" then some (.number (.float m.received))
    else if name = "meta" then m.flags?.map Flags.toJson
    else none := by
  cases hf : m.flags? <;>
    simp only [toJson, hf, Option.map_none, Option.map_some, Option.toList_none, Option.toList_some,
      List.cons_append, List.nil_append, Json.get?_object_cons, Json.get?_object_nil, ite_self]

theorem lookup?_eq_walk? {path : List String} (h : Searched path) (m : Message) :
    m.lookup? path = m.toJson.walk? path := by
  obtain ⟨hnil, hvalue, hmeta⟩ := h
  unfold lookup?
  split
  · simp [get?_toJson]
  · simp [get?_toJson]
  · simp [get?_toJson, entryField?_eq_get?]
  · rename_i hkey htime hfield
    rcases path with _ | ⟨root, _ | ⟨name, rest⟩⟩
    · exact absurd rfl hnil
    · simp_all [get?_toJson]
    · have hroot : root ≠ "value" := fun he => hfield name rest (by rw [he])
      have hmeta' : root ≠ "meta" := fun he => hmeta (by rw [he]; rfl)
      simp only [Json.walk?_cons, get?_toJson, hroot, hmeta', ↓reduceIte]
      by_cases hk : root = "key" <;> by_cases ht : root = "timestamp" <;> simp [hk, ht, Json.get?]

theorem lookup?_of_not_searched {path : List String} (h : ¬ Searched path) (m : Message) :
    m.lookup? path = none := by
  unfold lookup?
  split <;> simp_all [Searched]

/-- What a message has at a path that is looked up. -/
def Finds (m : Message) (path : List String) (found : Json) : Prop :=
  Searched path ∧ m.toJson.Reaches path found

theorem lookup?_eq_some_iff {m : Message} {path : List String} {found : Json} :
    m.lookup? path = some found ↔ m.Finds path found := by
  by_cases hs : Searched path
  · rw [lookup?_eq_walk? hs, Json.walk?_eq_some_iff, Finds]
    exact (and_iff_right hs).symm
  · rw [lookup?_of_not_searched hs]
    simp [Finds, hs]

end Message

end FeedQuery
