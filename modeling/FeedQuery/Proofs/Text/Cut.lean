import FeedQuery.Text.Lines

/-! Cutting a text at a character undoes joining pieces without that character. -/
namespace FeedQuery.Text

theorem cutChars_eq_splitOn (sep : Char) (cs : List Char) : cutChars sep cs = cs.splitOn sep := by
  induction cs with
  | nil => rfl
  | cons c cs ih =>
    rw [cutChars, List.splitOn_cons_eq_if_modifyHead, ih]
    by_cases hc : c = sep
    · simp [hc]
    · simp only [hc, ↓reduceIte, beq_iff_eq]
      cases hs : cs.splitOn sep with
      | nil => exact absurd hs (List.splitOn_ne_nil sep cs)
      | cons piece pieces => rfl

/-- Texts on both sides of the character are cut apart. -/
theorem cutChars_append_cons (sep : Char) (cs ds : List Char) :
    cutChars sep (cs ++ sep :: ds) = cutChars sep cs ++ cutChars sep ds := by
  simp only [cutChars_eq_splitOn]
  exact List.splitOnP_append_cons cs ds (by simp)

theorem cutChars_of_notMem {sep : Char} {piece : List Char} (h : sep ∉ piece) :
    cutChars sep piece = [piece] := by
  induction piece with
  | nil => rfl
  | cons c piece ih =>
    rw [List.mem_cons, not_or] at h
    rw [cutChars, if_neg (Ne.symm h.1), ih h.2]

theorem cutChars_append {sep : Char} {piece : List Char} (h : sep ∉ piece) (rest : List Char) :
    cutChars sep (piece ++ sep :: rest) = piece :: cutChars sep rest := by
  rw [cutChars_append_cons, cutChars_of_notMem h, List.singleton_append]

/-- There is one piece more than the character occurs. -/
theorem length_cutChars (sep : Char) (cs : List Char) :
    (cutChars sep cs).length = cs.count sep + 1 := by
  induction cs with
  | nil => rfl
  | cons c cs ih =>
    by_cases hc : c = sep
    · simp [cutChars, hc, ih]
    · obtain ⟨piece, pieces, hcs⟩ := List.exists_cons_of_ne_nil (cutChars_ne_nil sep cs)
      simp only [hcs] at ih
      simpa [cutChars, hc, hcs] using ih

theorem notMem_of_mem_cutChars {sep : Char} {cs piece : List Char} (h : piece ∈ cutChars sep cs) :
    sep ∉ piece := by
  induction cs generalizing piece with
  | nil => simp_all [cutChars]
  | cons c cs ih =>
    rw [cutChars] at h
    split at h
    · rcases List.mem_cons.1 h with rfl | h
      · exact List.not_mem_nil
      · exact ih h
    · rename_i hc
      split at h
      · rename_i hcs
        exact absurd hcs (cutChars_ne_nil sep cs)
      · rename_i first pieces hcs
        have hne : sep ≠ c := fun he => hc he.symm
        rcases List.mem_cons.1 h with rfl | h
        · have hfirst : sep ∉ first := ih (by simp [hcs])
          simp [hne, hfirst]
        · exact ih (by simp [hcs, h])

theorem map_toList_cut (sep : Char) (s : String) :
    (cut sep s).map String.toList = s.toList.splitOn sep := by
  simp [cut, cutChars_eq_splitOn, Function.comp_def]

/-- The pieces of a text are at least one, none has the character, and joined they are the text. -/
theorem cut_eq_iff {sep : Char} {s : String} {pieces : List String} :
    cut sep s = pieces ↔ pieces ≠ [] ∧ (∀ piece ∈ pieces, sep ∉ piece.toList) ∧
      (String.singleton sep).intercalate pieces = s := by
  constructor
  · rintro rfl
    refine ⟨?_, ?_, ?_⟩
    · simpa [cut] using cutChars_ne_nil sep s.toList
    · intro piece hp
      obtain ⟨cs, hcs, rfl⟩ := List.mem_map.1 hp
      rw [String.toList_ofList]
      exact notMem_of_mem_cutChars hcs
    · apply String.toList_injective
      rw [String.toList_intercalate, map_toList_cut, String.toList_singleton]
      exact List.intercalate_splitOn sep
  · rintro ⟨hne, hnot, rfl⟩
    apply (List.map_inj_right fun _ _ => String.toList_injective).1
    rw [map_toList_cut, String.toList_intercalate, String.toList_singleton]
    apply List.splitOn_intercalate
    · simpa using hnot
    · simpa using hne

/-- A text is cut once at the first occurrence. -/
theorem cutOnce?_eq_some_iff {sep : Char} {cs before behind : List Char} :
    cutOnce? sep cs = some (before, behind) ↔ cs = before ++ sep :: behind ∧ sep ∉ before := by
  induction cs generalizing before behind with
  | nil => simp [cutOnce?]
  | cons c cs ih =>
    rw [cutOnce?]
    split
    · rename_i hc
      subst hc
      cases before with
      | nil => simp
      | cons d before => simp +contextual
    · rename_i hc
      cases before with
      | nil => simp [hc]
      | cons d before =>
        simp only [Option.map_eq_some_iff, Prod.mk.injEq, List.cons.injEq, Prod.exists, ih,
          List.cons_append, List.mem_cons, not_or]
        constructor
        · rintro ⟨_, _, ⟨rfl, hnot⟩, ⟨rfl, rfl⟩, rfl⟩
          exact ⟨⟨rfl, rfl⟩, Ne.symm hc, hnot⟩
        · rintro ⟨⟨rfl, rfl⟩, -, hnot⟩
          exact ⟨_, _, ⟨rfl, hnot⟩, ⟨rfl, rfl⟩, rfl⟩

/-- There is one way to put a text together around the first occurrence. -/
theorem append_cons_inj {sep : Char} {before behind before' behind' : List Char}
    (h : before ++ sep :: behind = before' ++ sep :: behind') (hbefore : sep ∉ before)
    (hbefore' : sep ∉ before') : before = before' ∧ behind = behind' := by
  have hcut : cutOnce? sep (before ++ sep :: behind) = some (before, behind) :=
    cutOnce?_eq_some_iff.2 ⟨rfl, hbefore⟩
  rw [h, cutOnce?_eq_some_iff.2 ⟨rfl, hbefore'⟩, Option.some.injEq, Prod.mk.injEq] at hcut
  exact ⟨hcut.1.symm, hcut.2.symm⟩

theorem cutOnce?_eq_none_iff {sep : Char} {cs : List Char} :
    cutOnce? sep cs = none ↔ sep ∉ cs := by
  constructor
  · intro h hmem
    obtain ⟨before, behind, rfl, hbefore⟩ := List.eq_append_cons_of_mem hmem
    rw [cutOnce?_eq_some_iff.2 ⟨rfl, hbefore⟩] at h
    cases h
  · intro h
    cases hcut : cutOnce? sep cs with
    | none => rfl
    | some cut =>
      obtain ⟨before, behind⟩ := cut
      rw [(cutOnce?_eq_some_iff.1 hcut).1] at h
      simp at h

end FeedQuery.Text
