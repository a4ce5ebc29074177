import FeedQuery.Proofs.Filter.Nulls
import FeedQuery.Proofs.Message.RoundTrip

/-!
The JSON form of a filter is decoded as the filter without its nulls. A filter that a text is
decoded as has none, and is not nested deeper than the text.
-/
namespace FeedQuery

namespace Value

variable {n : Nat}

theorem present?_of_ne_null {v : Value} (h : v.json ≠ .null) : present? (some v) = some v := by
  obtain ⟨j, hj⟩ := v
  cases j with
  | null => exact absurd rfl h
  | _ => rfl

/-- A null is decoded as no value, anything else as itself. -/
theorem optional_ofJson {v : Value} (h : v.json.depth ≤ n) :
    Decoder.value.optional n (.ofJson v.json) = .ok (present? (some v)) := by
  by_cases hnull : v.json = .null
  · obtain ⟨j, hj⟩ := v
    cases hnull
    rfl
  · have hdraft : Draft.ofJson v.json ≠ .null := by
      obtain ⟨j, hj⟩ := v
      cases j with
      | null => exact absurd rfl hnull
      | _ => exact nofun
    rw [present?_of_ne_null hnull]
    exact Decoder.optional_eq_some hdraft (Decoder.value_ofJson h)

theorem readItems_ofItems {vs : List Value} (h : ∀ v ∈ vs, v.json.depth ≤ n) :
    Draft.readItems (Decoder.value n) (Draft.ofItems (vs.map Value.json)) none = .ok vs := by
  induction vs with
  | nil => rfl
  | cons v vs ih =>
    obtain ⟨hv, hvs⟩ := List.forall_mem_cons.1 h
    rw [List.map_cons, Draft.ofItems, Draft.readItems, Decoder.value_ofJson hv, ih hvs]
    rfl

theorem list_ofJson {vs : List Value} (h : (Json.array (vs.map Value.json)).depth ≤ n) :
    Decoder.value.list.optional n (.ofJson (.array (vs.map Value.json))) = .ok (some vs) := by
  cases n with
  | zero => exact absurd h (Nat.not_succ_le_zero _)
  | succ n =>
    have hitems := Json.depthItems_le_iff.1 (Nat.le_of_succ_le_succ h)
    have hlist : Decoder.value.list (n + 1) (.ofJson (.array (vs.map Value.json))) = .ok vs := by
      rw [Draft.ofJson, Decoder.list]
      exact readItems_ofItems fun v hv => hitems v.json (List.mem_map_of_mem hv)
    exact Decoder.optional_eq_some nofun hlist

/-- Only a null is read as null. -/
theorem json_ne_null {d : Draft} {j : Json} (hd : d ≠ .null) (h : d.json n = .ok j) :
    j ≠ .null := by
  rintro rfl
  unfold Draft.json at h
  split at h
  case h_1 => exact hd rfl
  case h_3 | h_4 | h_8 | h_9 =>
    obtain ⟨_, -, h⟩ := map_eq_ok_iff.1 h
    cases h
  all_goals cases h

/-- A value that is read as there is not nested too deep, and not null. -/
theorem of_optional {d : Draft} {v : Value}
    (h : Decoder.value.optional n d = .ok (some v)) : v.json.depth ≤ n ∧ v.json ≠ .null := by
  unfold Decoder.optional at h
  split at h
  · cases h
  · rename_i hd
    obtain ⟨v, hv, h⟩ := map_eq_ok_iff.1 h
    cases h
    refine ⟨Decoder.depth_le_of_value hv, ?_⟩
    obtain ⟨j, hj, rfl⟩ := map_eq_ok_iff.1 hv
    have hnull := json_ne_null hd hj
    cases j with
    | null => exact absurd rfl hnull
    | _ => exact nofun

/-- Values that are read as there are not nested too deep. -/
theorem of_list {d : Draft} {vs : List Value}
    (h : Decoder.value.list.optional n d = .ok (some vs)) :
    Json.depthItems (vs.map Value.json) < n := by
  unfold Decoder.optional at h
  split at h
  · cases h
  · obtain ⟨vs, hvs, h⟩ := map_eq_ok_iff.1 h
    cases h
    unfold Decoder.list at hvs
    split at hvs
    · cases hvs
    · have hdepth := Draft.forall_of_readItems (fun _ _ => Decoder.depth_le_of_value) hvs
      exact Nat.lt_succ_of_le (Json.depthItems_le_iff.2 (List.forall_mem_map.2 hdepth))
    · exact absurd hvs (Draft.reject_ne_ok _ _ _)

end Value

namespace Field

variable {σ : Type} {fields : List (Field σ)} {field : Field σ} {name : String} {n : Nat}

/-- A member that is only there for a value that is there. -/
theorem readMembers_field {α β : Type} {a? : Option α} {toJson : α → Json} {b : β}
    {decode : Draft → Except DecodeError β} (s : Option β → σ)
    (hfind : fields.find? (·.name == name) = some field) (hgiven : field.given (s none) = false)
    (hread : ∀ d, field.read n d (s none) = decode d >>= fun b => .ok (s (some b)))
    (hdecode : ∀ a ∈ a?, decode (.ofJson (toJson a)) = .ok b) (rest : List (String × Json)) :
    readMembers fields n (Draft.ofFields (RawFilter.field name (a?.map toJson) ++ rest)) none
        (s none) =
      readMembers fields n (Draft.ofFields rest) none (s (a?.map fun _ => b)) := by
  cases a? with
  | none => rfl
  | some a =>
    have hset : field.read n (.ofJson (toJson a)) (s none) = .ok (s (some b)) := by
      rw [hread, bind_of_eq_ok (hdecode a rfl)]
    exact readMembers_cons hfind hgiven hset _

end Field

namespace RawFilter

theorem toJson_eq (and? or? : Option (List RawFilter)) (operator? : Option String)
    (value? : Option Value) (values? : Option (List Value)) :
    toJson ⟨and?, or?, operator?, value?, values?⟩ = .object
      (field "and" (and?.map fun fs => .array (childrenJson fs)) ++
        (field "or" (or?.map fun fs => .array (childrenJson fs)) ++
          ownFields operator? value? values?)) := by
  cases and? <;> cases or? <;> rw [toJson] <;> rfl

theorem forall_mem_field {α : Type} {P : Json → Prop} {name : String} {a? : Option α}
    {toJson : α → Json} :
    (∀ f ∈ field name (a?.map toJson), P f.2) ↔ ∀ a ∈ a?, P (toJson a) := by
  cases a? <;> simp [field]

/-- What the fields of a filter hold is not nested too deep. -/
structure Shallow (n : Nat) (and? or? : Option (List RawFilter)) (value? : Option Value)
    (values? : Option (List Value)) : Prop where
  and : ∀ fs ∈ and?, Json.depthItems (childrenJson fs) < n
  or : ∀ fs ∈ or?, Json.depthItems (childrenJson fs) < n
  value : ∀ v ∈ value?, v.json.depth ≤ n
  values : ∀ vs ∈ values?, Json.depthItems (vs.map Value.json) < n

theorem depth_toJson_le_iff {n : Nat} {and? or? : Option (List RawFilter)}
    {operator? : Option String} {value? : Option Value} {values? : Option (List Value)} :
    (toJson ⟨and?, or?, operator?, value?, values?⟩).depth ≤ n + 1 ↔
      Shallow n and? or? value? values? := by
  rw [toJson_eq, Json.depth, Nat.add_le_add_iff_right, Json.depthFields_le_iff, ownFields]
  simp only [List.forall_mem_append, forall_mem_field (P := fun j => j.depth ≤ n), Json.depth]
  constructor
  · rintro ⟨hand, hor, -, hvalue, hvalues⟩
    exact ⟨hand, hor, hvalue, hvalues⟩
  · rintro ⟨hand, hor, hvalue, hvalues⟩
    exact ⟨hand, hor, fun _ _ => Nat.zero_le n, hvalue, hvalues⟩

mutual

/-- The JSON form of a filter is decoded as the filter without its nulls. -/
theorem decode_ofJson : (f : RawFilter) → {n : Nat} → f.toJson.depth ≤ n →
    decode n (.ofJson f.toJson) = .ok f.withoutNulls
  | ⟨and?, or?, operator?, value?, values?⟩, 0, h => by
    rw [toJson_eq, Json.depth] at h
    exact absurd h (Nat.not_succ_le_zero _)
  | ⟨and?, or?, operator?, value?, values?⟩, n + 1, h => by
    obtain ⟨hand, hor, hvalue, hvalues⟩ := depth_toJson_le_iff.1 h
    have hoperator : ∀ s ∈ operator?, Decoder.string.optional n (.ofJson (.string s)) =
        .ok operator? := fun s hs => by
      rw [hs]
      exact Decoder.optional_eq_some nofun (Decoder.string_ofJson n s)
    have hvalue' : ∀ v ∈ value?, Decoder.value.optional n (.ofJson v.json) =
        .ok (Value.present? value?) := fun v hv => by
      rw [Value.optional_ofJson (hvalue v hv), hv]
    have hvalues' : ∀ vs ∈ values?, Decoder.value.list.optional n
        (.ofJson (.array (vs.map Value.json))) = .ok values? := fun vs hvs => by
      rw [Value.list_ofJson (hvalues vs hvs), hvs]
    rw [toJson_eq, ownFields, ← List.append_nil (field "values" _), Draft.ofJson, decode,
      Record.decode]
    show Field.readMembers _ n _ none (Partial.mk none none none none none) >>= _ = _
    -- The members stand in the order of the fields, and each one sets the field of its name.
    rw [Field.readMembers_field (Partial.mk · none none none none) rfl rfl
        (fun _ => rfl) (decodeChildren_ofJson and? hand),
      Field.readMembers_field (Partial.mk _ · none none none) rfl rfl
        (fun _ => rfl) (decodeChildren_ofJson or? hor),
      Field.readMembers_field (Partial.mk _ _ · none none) rfl rfl
        (fun _ => rfl) hoperator,
      Field.readMembers_field (Partial.mk _ _ _ · none) rfl rfl
        (fun _ => rfl) hvalue',
      Field.readMembers_field (Partial.mk _ _ _ _ ·) rfl rfl
        (fun _ => rfl) hvalues']
    show Except.ok (Partial.finish _) = _
    rw [withoutNulls, Partial.finish]
    cases and? <;> cases or? <;> cases operator? <;> cases value? <;> cases values? <;> rfl

theorem decodeChildren_ofJson : (fs? : Option (List RawFilter)) → {n : Nat} →
    (∀ fs ∈ fs?, Json.depthItems (childrenJson fs) < n) →
    ∀ fs ∈ fs?, decodeChildren n (.ofJson (.array (childrenJson fs))) = .ok (listWithoutNulls? fs?)
  | none, _, _, _, hfs => nomatch hfs
  | some fs, 0, h, _, _ => absurd (h fs rfl) (Nat.not_lt_zero _)
  | some fs, n + 1, h, _, hfs => by
    cases hfs
    rw [Draft.ofJson, decodeChildren, readItems_childrenJson fs (Nat.le_of_lt_succ (h fs rfl))]
    rfl

theorem readItems_childrenJson : (fs : List RawFilter) → {n : Nat} →
    Json.depthItems (childrenJson fs) ≤ n →
    Draft.readItems (decode n) (Draft.ofItems (childrenJson fs)) none = .ok (listWithoutNulls fs)
  | [], _, _ => rfl
  | f :: fs, n, h => by
    rw [childrenJson, Json.depthItems, Nat.max_le] at h
    rw [childrenJson, Draft.ofItems, Draft.readItems, decode_ofJson f h.1,
      readItems_childrenJson fs h.2]
    rfl

end

theorem childrenJson_eq_map (fs : List RawFilter) : childrenJson fs = fs.map toJson := by
  induction fs with
  | nil => rfl
  | cons f fs ih => rw [childrenJson, ih, List.map_cons]

theorem listWithoutNulls_eq_map (fs : List RawFilter) :
    listWithoutNulls fs = fs.map withoutNulls := by
  induction fs with
  | nil => rfl
  | cons f fs ih => rw [listWithoutNulls, ih, List.map_cons]

/-- A filter as a text gives it: not nested too deep, and without nulls. -/
structure Plain (n : Nat) (f : RawFilter) : Prop where
  depth : f.toJson.depth ≤ n
  noNulls : f.withoutNulls = f

namespace Partial

/-- What is read of a filter so far is as a text gives it. -/
structure Fits (n : Nat) (p : Partial) : Prop where
  and : ∀ fs, p.and? = some (some fs) → ∃ m < n, ∀ f ∈ fs, Plain m f
  or : ∀ fs, p.or? = some (some fs) → ∃ m < n, ∀ f ∈ fs, Plain m f
  value : ∀ v, p.value? = some (some v) → v.json.depth ≤ n ∧ v.json ≠ .null
  values : ∀ vs, p.values? = some (some vs) → Json.depthItems (vs.map Value.json) < n

variable {n : Nat}

theorem Fits.read {children : Draft → Except DecodeError (Option (List RawFilter))}
    (hchildren : ∀ d fs, children d = .ok (some fs) → ∃ m < n, ∀ f ∈ fs, Plain m f)
    {field : Field Partial} (hfield : field ∈ (record children).fields) (d : Draft)
    (p p' : Partial) (hp : p.Fits n) (h : field.read n d p = .ok p') : p'.Fits n := by
  simp only [record, List.mem_cons, List.not_mem_nil, or_false] at hfield
  rcases hfield with rfl | rfl | rfl | rfl | rfl <;> obtain ⟨x?, hx, h⟩ := bind_eq_ok_iff.1 h <;>
    cases h
  case inl =>
    refine { hp with and := ?_ }
    rintro fs ⟨⟩
    exact hchildren d fs hx
  case inr.inl =>
    refine { hp with or := ?_ }
    rintro fs ⟨⟩
    exact hchildren d fs hx
  case inr.inr.inl => exact { hp with }
  case inr.inr.inr.inl =>
    refine { hp with value := ?_ }
    rintro v ⟨⟩
    exact Value.of_optional hx
  case inr.inr.inr.inr =>
    refine { hp with values := ?_ }
    rintro vs ⟨⟩
    exact Value.of_list hx

end Partial

/-- Children that are read are as the text gives them, if this is known of less nested filters. -/
theorem of_decodeChildren {n : Nat}
    (ih : ∀ m < n, ∀ d f, decode m d = .ok f → Plain m f) (d : Draft) (fs : List RawFilter)
    (h : decodeChildren n d = .ok (some fs)) : ∃ m < n, ∀ f ∈ fs, Plain m f := by
  unfold decodeChildren at h
  split at h
  case h_3 m items flaw? =>
    obtain ⟨fs, hfs, h⟩ := map_eq_ok_iff.1 h
    cases h
    exact ⟨m, Nat.lt_succ_self m, Draft.forall_of_readItems (ih m (Nat.lt_succ_self m)) hfs⟩
  case h_4 => exact absurd h (Draft.reject_ne_ok _ _ _)
  all_goals cases h

theorem depthItems_childrenJson_lt {n : Nat} {fs : List RawFilter}
    (h : ∃ m < n, ∀ f ∈ fs, Plain m f) : Json.depthItems (childrenJson fs) < n := by
  obtain ⟨m, hm, hfs⟩ := h
  rw [childrenJson_eq_map]
  exact Nat.lt_of_le_of_lt
    (Json.depthItems_le_iff.2 (List.forall_mem_map.2 fun f hf => (hfs f hf).depth)) hm

theorem listWithoutNulls?_eq_self {n : Nat} {fs? : Option (List RawFilter)}
    (h : ∀ fs ∈ fs?, ∃ m < n, ∀ f ∈ fs, Plain m f) : listWithoutNulls? fs? = fs? := by
  cases fs? with
  | none => rfl
  | some fs =>
    obtain ⟨m, -, hfs⟩ := h fs rfl
    have hself : ∀ f ∈ fs, f.withoutNulls = f := fun f hf => (hfs f hf).noNulls
    rw [listWithoutNulls?, listWithoutNulls_eq_map, List.map_congr_left hself, List.map_id']

theorem Partial.Fits.finish {n : Nat} {p : Partial} (h : p.Fits n) : Plain (n + 1) p.finish := by
  have hand := fun fs hfs => h.and fs (Option.join_eq_some_iff.1 hfs)
  have hor := fun fs hfs => h.or fs (Option.join_eq_some_iff.1 hfs)
  have hvalue := fun v hv => h.value v (Option.join_eq_some_iff.1 hv)
  have hpresent : Value.present? p.value?.join = p.value?.join := by
    cases hv : p.value?.join with
    | none => rfl
    | some v => exact Value.present?_of_ne_null (hvalue v hv).2
  constructor
  · exact depth_toJson_le_iff.2
      { and := fun fs hfs => depthItems_childrenJson_lt (hand fs hfs)
        or := fun fs hfs => depthItems_childrenJson_lt (hor fs hfs)
        value := fun v hv => (hvalue v hv).1
        values := fun vs hvs => h.values vs (Option.join_eq_some_iff.1 hvs) }
  · rw [Partial.finish, withoutNulls, listWithoutNulls?_eq_self hand, listWithoutNulls?_eq_self hor,
      hpresent]

/-- A filter that a text is decoded as is not nested deeper than the text, and has no nulls. -/
theorem plain_of_decode (n : Nat) (d : Draft) (f : RawFilter) (h : decode n d = .ok f) :
    Plain n f := by
  induction n using Nat.strongRecOn generalizing d f with
  | ind n ih =>
    cases n with
    | zero =>
      cases d with
      | array items flaw? => cases h
      | object members flaw? => cases h
      | _ => exact absurd h (Draft.reject_ne_ok _ _ _)
    | succ n =>
      rw [decode] at h
      have hempty : (record (decodeChildren n)).empty.Fits n := ⟨nofun, nofun, nofun, nofun⟩
      obtain ⟨p, hp, hfinish⟩ := Record.decode_invariant hempty (fun _ hfield =>
        Partial.Fits.read (of_decodeChildren fun m hm => ih m (Nat.lt_succ_of_lt hm)) hfield) h
      cases hfinish
      exact hp.finish

end RawFilter

end FeedQuery
