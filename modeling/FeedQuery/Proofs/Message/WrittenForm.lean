import FeedQuery.Proofs.Json.Fields
import FeedQuery.Proofs.Message.Lookup
import FeedQuery.Proofs.Message.RoundTrip
import FeedQuery.Sample

/-!
Looking up in the line of a message. Whoever reads the line as a generic value, with its keys put in
order, and walks on from there finds what the message itself finds at the same path.
-/
namespace FeedQuery

namespace Message

variable (m : Message)

theorem sorted_of_entryField? {name : String} {v : Json} (h : m.entryField? name = some v) :
    v.sorted = v := by
  unfold entryField? at h
  split at h <;> cases h
  case h_2 => cases m.entry.previous? <;> rfl
  case h_5 => exact Json.sorted_eq_self m.entry.content.sorted
  all_goals rfl

theorem get?_sorted_entry (name : String) :
    m.entry.toJson.sorted.get? name = m.entry.toJson.get? name := by
  have hkeys : ["previous", "author", "sequence", "timestamp", "content"].Nodup := by decide
  have hget : m.entry.toJson.sorted.get? name = (m.entry.toJson.get? name).map Json.sorted :=
    Json.get?_sorted hkeys
  rw [hget, ← entryField?_eq_get?]
  cases hv : m.entryField? name with
  | none => rfl
  | some v => rw [Option.map_some, m.sorted_of_entryField? hv]

theorem get?_sorted_toJson (name : String) :
    m.toJson.sorted.get? name = (m.toJson.get? name).map Json.sorted := by
  have hkeys : ["key", "value", "timestamp", "meta"].Nodup := by decide
  apply Json.get?_sorted
  cases m.flags? with
  | none => exact hkeys.sublist (by simp)
  | some f => exact hkeys

theorem walk?_sorted_toJson {path : List String} (h : Searched path) :
    m.toJson.sorted.walk? path = m.toJson.walk? path := by
  obtain ⟨hnil, hvalue, hmeta⟩ := h
  rcases path with _ | ⟨root, path⟩
  · exact absurd rfl hnil
  have hmeta' : root ≠ "meta" := fun he => hmeta (by rw [he]; rfl)
  rw [Json.walk?_cons, Json.walk?_cons, get?_sorted_toJson, get?_toJson]
  by_cases hroot : root = "value"
  · subst hroot
    rcases path with _ | ⟨name, path⟩
    · exact absurd rfl hvalue
    · simp [get?_sorted_entry]
  · by_cases hk : root = "key" <;> by_cases ht : root = "timestamp" <;>
      simp [hk, ht, hroot, hmeta', Json.sorted]

/-- The signed part nests the content in one more record than the message itself. -/
theorem depth_toJson_le {n : Nat} (h : m.entry.content.json.depth ≤ n) :
    m.toJson.depth ≤ n + 2 := by
  have hprevious : ((m.entry.previous?.map Json.string).getD .null).depth = 0 := by
    cases m.entry.previous? <;> rfl
  have hentry : m.entry.toJson.depth ≤ n + 1 := by
    simp [Entry.toJson, Json.depth, Json.depthFields, hprevious, h]
  cases hf : m.flags? with
  | none => simp [toJson, Json.depth, Json.depthFields, hf, hentry]
  | some f =>
    simp only [toJson, Flags.toJson, Json.depth, Json.depthFields, hf, Option.map_some,
      Option.toList_some, List.cons_append, List.nil_append]
    omega

/-- The line of a message is read as a generic value. -/
theorem ofText_value_line (h : m.entry.content.json.depth ≤ contentNesting) :
    Value.ofText m.line = .ok (.ofJson m.toJson) := by
  have hjson : (Draft.ofJson m.toJson).json Decoder.nesting = .ok m.toJson :=
    Draft.json_ofJson _ _ (m.depth_toJson_le h)
  have hvalue : Decoder.value Decoder.nesting (.ofJson m.toJson) = .ok (.ofJson m.toJson) :=
    map_eq_ok_iff.2 ⟨_, hjson, rfl⟩
  rw [Value.ofText, Decoder.run, line, Draft.ofText_compact]
  exact bind_of_eq_ok hvalue

/-- A path leads to a value in a message exactly if it leads there through the objects of its JSON
form, one key after the other, and is not empty, not the signed part as a whole and no path into the
flags. Unless the content is nested too deep to be read at all, the line of the message is read as a
value in which the path leads to the same. -/
theorem lookup_follows_line (m : Message) (path : List String) :
    (∀ found, m.lookup? path = some found ↔
      (path ≠ [] ∧ path ≠ ["value"] ∧ path.head? ≠ some "meta") ∧ m.toJson.Reaches path found) ∧
    (m.entry.content.json.depth ≤ contentNesting → ∃ v, Value.ofText m.line = .ok v ∧
      ∀ found, m.lookup? path = some found ↔
        (path ≠ [] ∧ path ≠ ["value"] ∧ path.head? ≠ some "meta") ∧ v.json.Reaches path found) := by
  refine ⟨fun found => lookup?_eq_some_iff, fun h => ⟨_, m.ofText_value_line h, fun found => ?_⟩⟩
  rw [lookup?_eq_some_iff]
  refine and_congr_right fun hsearched => ?_
  rw [← Json.walk?_eq_some_iff, ← Json.walk?_eq_some_iff]
  exact iff_of_eq (congrArg (· = some found) (m.walk?_sorted_toJson hsearched).symm)

/-- The link of a vote in a private message, looked up in the message and in its line, where the keys
come in another order. The flag is in the line too, but no path finds it. -/
theorem lookup_follows_line_vote :
    let m : Message := { Sample.message 2 Sample.bob 2500 Sample.vote with flags? := some ⟨true⟩ }
    let path := ["value", "content", "vote", "link"]
    m.entry.content.json.depth ≤ contentNesting ∧ ∃ v, Value.ofText m.line = .ok v ∧
      m.lookup? path = some (.string Sample.thread) ∧
      v.json.Reaches path (.string Sample.thread) ∧
      m.toJson.Reaches ["meta", "private"] (.bool true) ∧ m.lookup? ["meta", "private"] = none := by
  intro m path
  have hdepth : m.entry.content.json.depth ≤ contentNesting := by decide
  have hfound : m.lookup? path = some (.string Sample.thread) := rfl
  obtain ⟨-, hline⟩ := lookup_follows_line m path
  obtain ⟨v, hv, hfollows⟩ := hline hdepth
  refine ⟨hdepth, v, hv, hfound, ((hfollows _).1 hfound).2, ?_, rfl⟩
  exact Json.walk?_eq_some_iff.1 rfl

end Message

end FeedQuery
