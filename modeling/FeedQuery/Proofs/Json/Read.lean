import FeedQuery.Json.Decode
import FeedQuery.Proofs.Json.Scan

/-!
Reading the compact text of a value gives the value, as deep as the reader goes. What a reader gives
is never deeper.
-/
namespace FeedQuery

namespace Draft

mutual

/-- The tree that a value is read as. -/
def ofJson : Json → Draft
  | .null => .null
  | .bool b => .bool b
  | .number n => .number n.numeral
  | .string s => .string (.ofString s)
  | .array items => .array (ofItems items) none
  | .object fields => .object (ofFields fields) none

def ofItems : List Json → List Draft
  | [] => []
  | j :: items => ofJson j :: ofItems items

def ofFields : List (String × Json) → List (Quotation × Draft)
  | [] => []
  | (k, v) :: fields => (.ofString k, ofJson v) :: ofFields fields

end

/-- What reading comes to from some progress on. -/
def resume (ts : List Token) : Progress → Draft × Bool
  | .more state => read ts state
  | .complete d => (d, !ts.isEmpty)
  | .stuck d => (d, false)

theorem read_cons (t : Token) (ts : List Token) (state : State) :
    read (t :: ts) state = resume ts (step t state) := by
  rw [read]
  cases step t state <;> rfl

/-- No value starts with a closing bracket. -/
theorem read_firstItem (j : Json) (ts : List Token) (stack : List Frame) :
    read (j.tokens ++ ts) (.firstItem stack) =
      read (j.tokens ++ ts) (.value (.array [] :: stack)) := by
  rcases j with _ | b | n | s | (_ | ⟨j, items⟩) | (_ | ⟨⟨k, v⟩, fields⟩) <;> rfl

mutual

/-- The tokens of a value are read as the tree of the value. -/
theorem read_tokens (ts : List Token) (stack : List Frame) :
    (j : Json) → read (j.tokens ++ ts) (.value stack) = resume ts (place (ofJson j) stack)
  | .null => read_cons _ _ _
  | .bool _ => read_cons _ _ _
  | .number _ => read_cons _ _ _
  | .string _ => read_cons _ _ _
  | .array [] => read_cons .closeArray ts (.firstItem stack)
  | .array (j :: items) => by
    rw [Json.tokens, List.cons_append, List.append_assoc]
    show read (j.tokens ++ _) (.firstItem stack) = _
    rw [read_firstItem, read_tokens _ _ j]
    exact read_tokensItems ts [ofJson j] stack items
  | .object [] => read_cons .closeObject ts (.firstKey stack)
  | .object ((k, v) :: fields) => by
    rw [Json.tokens, List.cons_append, List.cons_append, List.cons_append, List.append_assoc]
    show read (v.tokens ++ _) (.value (.object [] (.ofString k) :: stack)) = _
    rw [read_tokens _ _ v]
    exact read_tokensFields ts [(.ofString k, ofJson v)] stack fields

theorem read_tokensItems (ts : List Token) (before : List Draft) (stack : List Frame) :
    (items : List Json) → read (Json.tokensItems items ++ ts) (.nextItem before stack) =
      resume ts (place (.array (before.reverse ++ ofItems items) none) stack)
  | [] => by
    rw [ofItems, List.append_nil]
    exact read_cons _ _ _
  | j :: items => by
    rw [Json.tokensItems, List.cons_append, List.append_assoc]
    show read (j.tokens ++ _) (.value (.array before :: stack)) = _
    rw [read_tokens _ _ j, ofItems, List.append_cons, ← List.reverse_cons]
    exact read_tokensItems ts (ofJson j :: before) stack items

theorem read_tokensFields (ts : List Token) (before : List (Quotation × Draft))
    (stack : List Frame) : (fields : List (String × Json)) →
      read (Json.tokensFields fields ++ ts) (.nextMember before stack) =
        resume ts (place (.object (before.reverse ++ ofFields fields) none) stack)
  | [] => by
    rw [ofFields, List.append_nil]
    exact read_cons _ _ _
  | (k, v) :: fields => by
    rw [Json.tokensFields, List.cons_append, List.cons_append, List.cons_append, List.append_assoc]
    show read (v.tokens ++ _) (.value (.object before (.ofString k) :: stack)) = _
    rw [read_tokens _ _ v, ofFields, List.append_cons, ← List.reverse_cons]
    exact read_tokensFields ts ((.ofString k, ofJson v) :: before) stack fields

end

/-- The compact text of a value is read as the value and nothing behind it. -/
theorem ofText_compact (j : Json) : ofText j.compact = (ofJson j, false) := by
  have hscan := Json.scan_tokens [] Numeral.delimits_nil j
  rw [List.append_nil] at hscan
  rw [ofText, Json.compact, String.toList_ofList, Json.compactChars]
  show read (Token.scan (Token.text j.tokens)) _ = _
  rw [hscan, read_tokens]
  simp [resume, place, Token.scan]

end Draft

namespace Json

mutual

/-- How many containers are nested in each other. -/
def depth : Json → Nat
  | .array items => depthItems items + 1
  | .object fields => depthFields fields + 1
  | _ => 0

def depthItems : List Json → Nat
  | [] => 0
  | j :: items => max j.depth (depthItems items)

def depthFields : List (String × Json) → Nat
  | [] => 0
  | (_, v) :: fields => max v.depth (depthFields fields)

end

theorem depthItems_le_iff {n : Nat} {items : List Json} :
    depthItems items ≤ n ↔ ∀ j ∈ items, j.depth ≤ n := by
  induction items with
  | nil => simp [depthItems]
  | cons j items ih => rw [depthItems, Nat.max_le, ih, List.forall_mem_cons]

theorem depthFields_le_iff {n : Nat} {fields : List (String × Json)} :
    depthFields fields ≤ n ↔ ∀ f ∈ fields, f.2.depth ≤ n := by
  induction fields with
  | nil => simp [depthFields]
  | cons f fields ih => rw [depthFields, Nat.max_le, ih, List.forall_mem_cons]

end Json

namespace Draft

@[simp] theorem decode_ofString (s : String) : (Quotation.ofString s).decode = .ok s := by
  rw [Quotation.decode, Quotation.text_ofString]
  rfl

@[simp] theorem decode_numeral (x : Number) : x.numeral.decode = .ok x := by
  rw [Numeral.decode, x.number?_numeral]

mutual

/-- A value is decoded from its own tree if it is not too deep. -/
theorem json_ofJson : (n : Nat) → (j : Json) → j.depth ≤ n → (ofJson j).json n = .ok j
  | _, .null, _ => by rw [ofJson, json]
  | _, .bool _, _ => by rw [ofJson, json]
  | _, .number x, _ => by
    rw [ofJson, json, decode_numeral]
    rfl
  | _, .string s, _ => by
    rw [ofJson, json, decode_ofString]
    rfl
  | n + 1, .array items, h => by
    rw [ofJson, json, readItems_ofItems n items (Nat.le_of_succ_le_succ h)]
    rfl
  | n + 1, .object fields, h => by
    rw [ofJson, json, readMembers_ofFields n fields (Nat.le_of_succ_le_succ h)]
    rfl
  | 0, .array items, h => absurd h (Nat.not_succ_le_zero _)
  | 0, .object fields, h => absurd h (Nat.not_succ_le_zero _)

theorem readItems_ofItems : (n : Nat) → (items : List Json) → Json.depthItems items ≤ n →
    readItems (json n) (ofItems items) none = .ok items
  | _, [], _ => rfl
  | n, j :: items, h => by
    obtain ⟨hj, hitems⟩ := Nat.max_le.1 h
    rw [ofItems, readItems, json_ofJson n j hj, readItems_ofItems n items hitems]
    rfl

theorem readMembers_ofFields : (n : Nat) → (fields : List (String × Json)) →
    Json.depthFields fields ≤ n → readMembers (json n) (ofFields fields) none = .ok fields
  | _, [], _ => rfl
  | n, (k, v) :: fields, h => by
    obtain ⟨hv, hfields⟩ := Nat.max_le.1 h
    rw [ofFields, readMembers, decode_ofString, json_ofJson n v hv,
      readMembers_ofFields n fields hfields]
    rfl

end

theorem exists_mem_of_readItems {α : Type} {item : Draft → Except DecodeError α}
    {items : List Draft} {flaw? : Option Flaw} {as : List α}
    (h : readItems item items flaw? = .ok as) : ∀ a ∈ as, ∃ d ∈ items, item d = .ok a := by
  induction items generalizing as with
  | nil =>
    cases flaw? <;> cases h
    exact nofun
  | cons d items ih =>
    obtain ⟨a, ha, h⟩ := bind_eq_ok_iff.1 h
    obtain ⟨as, has, h⟩ := bind_eq_ok_iff.1 h
    cases h
    refine List.forall_mem_cons.2 ⟨⟨d, List.mem_cons_self, ha⟩, fun b hb => ?_⟩
    obtain ⟨d', hd', hb⟩ := ih has b hb
    exact ⟨d', List.mem_cons_of_mem _ hd', hb⟩

theorem forall_of_readItems {α : Type} {item : Draft → Except DecodeError α} {P : α → Prop}
    (hitem : ∀ d a, item d = .ok a → P a) {items : List Draft} {flaw? : Option Flaw} {as : List α}
    (h : readItems item items flaw? = .ok as) : ∀ a ∈ as, P a := by
  intro a ha
  obtain ⟨d, -, ha⟩ := exists_mem_of_readItems h a ha
  exact hitem d a ha

theorem forall_of_readMembers {α : Type} {item : Draft → Except DecodeError α} {P : α → Prop}
    (hitem : ∀ d a, item d = .ok a → P a) {members : List (Quotation × Draft)}
    {flaw? : Option Flaw} {as : List (String × α)}
    (h : readMembers item members flaw? = .ok as) : ∀ a ∈ as, P a.2 := by
  induction members generalizing as with
  | nil =>
    cases flaw? <;> cases h
    exact nofun
  | cons m members ih =>
    obtain ⟨name, -, h⟩ := bind_eq_ok_iff.1 h
    obtain ⟨a, ha, h⟩ := bind_eq_ok_iff.1 h
    obtain ⟨as, has, h⟩ := bind_eq_ok_iff.1 h
    cases h
    exact List.forall_mem_cons.2 ⟨hitem m.2 a ha, ih has⟩

/-- What is decoded is not nested deeper than the decoder goes. -/
theorem depth_le_of_json {n : Nat} {d : Draft} {j : Json} (h : d.json n = .ok j) :
    j.depth ≤ n := by
  induction n using Nat.strongRecOn generalizing d j with
  | ind n ih =>
    unfold json at h
    split at h
    case h_1 | h_2 =>
      cases h
      exact Nat.zero_le _
    case h_3 | h_4 =>
      obtain ⟨_, -, rfl⟩ := map_eq_ok_iff.1 h
      exact Nat.zero_le _
    case h_8 nesting _ _ =>
      obtain ⟨items, hitems, rfl⟩ := map_eq_ok_iff.1 h
      exact Nat.succ_le_succ (Json.depthItems_le_iff.2
        (forall_of_readItems (fun _ _ => ih nesting (Nat.lt_succ_self _)) hitems))
    case h_9 nesting _ _ =>
      obtain ⟨fields, hfields, rfl⟩ := map_eq_ok_iff.1 h
      exact Nat.succ_le_succ (Json.depthFields_le_iff.2
        (forall_of_readMembers (fun _ _ => ih nesting (Nat.lt_succ_self _)) hfields))
    all_goals cases h

end Draft

namespace Json

theorem putAbsent_of_lt {key : String} {value : Json} {fields : List (String × Json)}
    (h : ∀ k ∈ fields.map Prod.fst, key < k) :
    putAbsent key value fields = (key, value) :: fields := by
  cases fields with
  | nil => rfl
  | cons f fields => rw [putAbsent, if_pos (h f.1 List.mem_cons_self)]

mutual

/-- A value whose keys are in order already is left as it is. -/
theorem sorted_eq_self : {j : Json} → j.Sorted → j.sorted = j
  | .null, _ | .bool _, _ | .number _, _ | .string _, _ => rfl
  | .array _, h => congrArg Json.array (sortedItems_eq_self h)
  | .object _, h => congrArg Json.object (sortedFields_eq_self h.1 h.2)

theorem sortedItems_eq_self : {items : List Json} → SortedItems items → sortedItems items = items
  | [], _ => rfl
  | _ :: _, h => by rw [sortedItems, sorted_eq_self h.1, sortedItems_eq_self h.2]

theorem sortedFields_eq_self : {fields : List (String × Json)} →
    (fields.map Prod.fst).Pairwise (· < ·) → SortedFields fields → sortedFields fields = fields
  | [], _, _ => rfl
  | (k, v) :: fields, hkeys, h => by
    obtain ⟨hlt, hrest⟩ := List.pairwise_cons.1 hkeys
    rw [sortedFields, sorted_eq_self h.1, sortedFields_eq_self hrest h.2, putAbsent_of_lt hlt]

end

theorem depthFields_putAbsent_le (key : String) (value : Json) (fields : List (String × Json)) :
    depthFields (putAbsent key value fields) ≤ max value.depth (depthFields fields) := by
  induction fields with
  | nil => exact Nat.le_refl _
  | cons f fields ih =>
    rw [putAbsent]
    split
    · exact Nat.le_refl _
    · split
      · exact Nat.le_max_right _ _
      · rw [depthFields, depthFields]
        omega

mutual

/-- Putting keys in order does not nest anything deeper. -/
theorem depth_sorted_le : (j : Json) → j.sorted.depth ≤ j.depth
  | .null | .bool _ | .number _ | .string _ => Nat.le_refl _
  | .array items => Nat.succ_le_succ (depthItems_sorted_le items)
  | .object fields => Nat.succ_le_succ (depthFields_sorted_le fields)

theorem depthItems_sorted_le : (items : List Json) →
    depthItems (sortedItems items) ≤ depthItems items
  | [] => Nat.le_refl _
  | j :: items => by
    have hj := depth_sorted_le j
    have hitems := depthItems_sorted_le items
    rw [sortedItems, depthItems, depthItems]
    omega

theorem depthFields_sorted_le : (fields : List (String × Json)) →
    depthFields (sortedFields fields) ≤ depthFields fields
  | [] => Nat.le_refl _
  | (k, v) :: fields => by
    have hput := depthFields_putAbsent_le k v.sorted (sortedFields fields)
    have hv := depth_sorted_le v
    have hfields := depthFields_sorted_le fields
    rw [sortedFields, depthFields]
    omega

end

end Json

namespace Decoder

/-- A generic value is read back from its own tree, if it is not too deep. -/
theorem value_ofJson {n : Nat} {v : Value} (h : v.json.depth ≤ n) :
    Decoder.value n (.ofJson v.json) = .ok v := by
  have hself : Value.ofJson v.json = v := by
    rcases v with ⟨j, hj⟩
    simp only [Value.ofJson, Json.sorted_eq_self hj]
  rw [Decoder.value, Draft.json_ofJson n v.json h]
  exact congrArg Except.ok hself

theorem depth_le_of_value {n : Nat} {d : Draft} {v : Value} (h : Decoder.value n d = .ok v) :
    v.json.depth ≤ n := by
  obtain ⟨j, hj, rfl⟩ := map_eq_ok_iff.1 h
  exact Nat.le_trans (Json.depth_sorted_le j) (Draft.depth_le_of_json hj)

end Decoder

end FeedQuery
