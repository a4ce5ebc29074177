import FeedQuery.Json.Basic

/-!
Fields of an object whose keys are put in order: each is found again under its name, the last one
where a name stands several times.
-/
namespace FeedQuery.Json

variable {key name : String} {value v : Json} {fields : List (String × Json)}

theorem get?_object_nil (name : String) : (object []).get? name = none := rfl

theorem get?_object_cons (key name : String) (v : Json) (fields : List (String × Json)) :
    (object ((key, v) :: fields)).get? name =
      if name = key then some v else (object fields).get? name := by
  by_cases h : name = key
  · simp [get?, h]
  · simp [get?, List.lookup_cons, beq_false_of_ne h, h]

theorem get?_putAbsent (h : key ∉ fields.map Prod.fst) :
    (object (putAbsent key value fields)).get? name =
      if name = key then some value else (object fields).get? name := by
  induction fields with
  | nil => rw [putAbsent, get?_object_cons]
  | cons f fields ih =>
    obtain ⟨k, v⟩ := f
    obtain ⟨hk, hfields⟩ : key ≠ k ∧ key ∉ fields.map Prod.fst := by simpa using h
    by_cases hlt : key < k
    · rw [putAbsent, if_pos hlt, get?_object_cons]
    · rw [putAbsent, if_neg hlt, if_neg hk, get?_object_cons, get?_object_cons, ih hfields]
      by_cases hname : name = k
      · subst hname
        simp [Ne.symm hk]
      · simp [hname]

theorem mem_keys_sortedFields : key ∈ (sortedFields fields).map Prod.fst ↔
    key ∈ fields.map Prod.fst := by
  induction fields with
  | nil => rfl
  | cons f fields ih => rw [sortedFields, mem_keys_putAbsent, ih, List.map_cons, List.mem_cons]

/-- Where no key stands twice, every field is found again with the keys put in order. -/
theorem get?_sorted (h : (fields.map Prod.fst).Nodup) :
    (object fields).sorted.get? name = ((object fields).get? name).map sorted := by
  rw [sorted]
  induction fields with
  | nil => rfl
  | cons f fields ih =>
    obtain ⟨k, v⟩ := f
    obtain ⟨hk, hfields⟩ := List.nodup_cons.1 h
    rw [sortedFields, get?_putAbsent (mt mem_keys_sortedFields.1 hk), ih hfields, get?_object_cons]
    by_cases hname : name = k <;> simp [hname]

theorem putAbsent_of_mem (hkeys : (fields.map Prod.fst).Pairwise (· < ·))
    (h : key ∈ fields.map Prod.fst) : putAbsent key value fields = fields := by
  induction fields with
  | nil => cases h
  | cons f fields ih =>
    obtain ⟨k, v⟩ := f
    obtain ⟨hlt, hkeys⟩ := List.pairwise_cons.1 hkeys
    rcases List.mem_cons.1 h with rfl | h
    · rw [putAbsent, if_neg (String.lt_irrefl _), if_pos rfl]
    · have hk : k < key := hlt key h
      rw [putAbsent, if_neg (String.lt_asymm hk), if_neg (String.ne_of_lt hk).symm, ih hkeys h]

/-- The last field with some name is found again with the keys put in order. -/
theorem get?_sorted_of_last {before behind : List (String × Json)}
    (h : name ∉ behind.map Prod.fst) :
    (object (before ++ (name, v) :: behind)).sorted.get? name = some v.sorted := by
  rw [sorted]
  induction before with
  | nil =>
    rw [List.nil_append, sortedFields, get?_putAbsent (mt mem_keys_sortedFields.1 h), if_pos rfl]
  | cons f before ih =>
    obtain ⟨k, value⟩ := f
    rw [List.cons_append, sortedFields]
    by_cases hk : k ∈ (before ++ (name, v) :: behind).map Prod.fst
    · rw [putAbsent_of_mem (pairwise_keys_sortedFields _) (mem_keys_sortedFields.2 hk), ih]
    · have hne : name ≠ k := by
        rintro rfl
        exact hk (by simp)
      rw [get?_putAbsent (mt mem_keys_sortedFields.1 hk), if_neg hne, ih]

end FeedQuery.Json
