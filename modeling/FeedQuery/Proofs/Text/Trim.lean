import FeedQuery.Text.Lines

/-!
Trimming a text takes off the white space at its ends, and nothing else.
-/
namespace FeedQuery.Text

/-- A text without white space at its ends. -/
def Unpadded (s : String) : Prop :=
  ∀ c, s.toList.head? = some c ∨ s.toList.getLast? = some c → isBlank c = false

instance (s : String) : Decidable (Unpadded s) :=
  decidable_of_iff (s.toList.head?.all (!isBlank ·) ∧ s.toList.getLast?.all (!isBlank ·))
    (by simp [Unpadded, Option.all_eq_true, or_imp, forall_and])

variable {c : Char} {cs spaces : List Char}

theorem dropWhile_of_blank (h : ∀ c ∈ cs, isBlank c = true) : cs.dropWhile isBlank = [] := by
  rw [← List.append_nil cs, List.dropWhile_append_of_pos h, List.dropWhile_nil]

theorem dropWhile_of_head (h : ∀ c, cs.head? = some c → isBlank c = false) :
    cs.dropWhile isBlank = cs := by
  cases cs with
  | nil => rfl
  | cons c cs => exact List.dropWhile_cons_of_neg (by simp [h c rfl])

theorem mem_dropWhile_iff (hc : isBlank c = false) : c ∈ cs.dropWhile isBlank ↔ c ∈ cs := by
  constructor
  · exact fun h => (List.dropWhile_suffix isBlank).subset h
  · intro h
    rw [← List.takeWhile_append_dropWhile (p := isBlank) (l := cs), List.mem_append] at h
    refine h.resolve_left fun hblank => ?_
    cases hc.symm.trans (List.all_eq_true.1 List.all_takeWhile c hblank)

theorem mem_trimChars_iff (hc : isBlank c = false) : c ∈ trimChars cs ↔ c ∈ cs := by
  rw [trimChars, List.mem_reverse, mem_dropWhile_iff hc, List.mem_reverse, mem_dropWhile_iff hc]

theorem trimChars_of_blank (h : ∀ c ∈ cs, isBlank c = true) : trimChars cs = [] := by
  rw [trimChars, dropWhile_of_blank h]
  rfl

/-- White space behind a text is trimmed, and nothing else when there is none at its ends. -/
theorem trimChars_append (hcs : ∀ c, cs.head? = some c ∨ cs.getLast? = some c → isBlank c = false)
    (hspaces : ∀ c ∈ spaces, isBlank c = true) : trimChars (cs ++ spaces) = cs := by
  cases cs with
  | nil => exact trimChars_of_blank hspaces
  | cons first cs =>
    have hhead : ∀ c, (first :: cs ++ spaces).head? = some c → isBlank c = false :=
      fun c hc => hcs c (.inl hc)
    have hlast : ∀ c, (first :: cs).reverse.head? = some c → isBlank c = false := by
      intro c hc
      rw [List.head?_reverse] at hc
      exact hcs c (.inr hc)
    rw [trimChars, dropWhile_of_head hhead, List.reverse_append, List.dropWhile_append_of_pos
      (fun c hc => hspaces c (List.mem_reverse.1 hc)), dropWhile_of_head hlast, List.reverse_reverse]

theorem trimChars_of_ends
    (hcs : ∀ c, cs.head? = some c ∨ cs.getLast? = some c → isBlank c = false) :
    trimChars cs = cs := by
  have hspaces : ∀ c ∈ [], isBlank c = true := nofun
  simpa only [List.append_nil] using trimChars_append hcs hspaces

/-- A text whose first character is no white space still starts with it. -/
theorem exists_trimChars_eq_cons (hspaces : ∀ c ∈ spaces, isBlank c = true)
    (hc : isBlank c = false) (cs : List Char) :
    ∃ rest, trimChars (spaces ++ c :: cs) = c :: rest := by
  have hlast : [c].dropWhile isBlank = [c] := List.dropWhile_cons_of_neg (by simp [hc])
  refine ⟨(cs.reverse.dropWhile isBlank).reverse, ?_⟩
  rw [trimChars, List.dropWhile_append_of_pos hspaces, List.dropWhile_cons_of_neg (by simp [hc]),
    List.reverse_cons, List.dropWhile_append, hlast]
  cases cs.reverse.dropWhile isBlank <;> simp

theorem unpadded_trim (s : String) : Unpadded (trim s) := by
  have hnot (cs : List Char) {c : Char} (h : (cs.dropWhile isBlank).head? = some c) :
      isBlank c = false := by
    simpa [h] using List.head?_dropWhile_not isBlank cs
  intro c h
  rw [trim, String.toList_ofList, trimChars, List.head?_reverse, List.getLast?_reverse] at h
  rcases h with h | h
  · -- what is cut off behind leaves the first character
    obtain ⟨spaces, hspaces⟩ := List.dropWhile_suffix (l := (s.toList.dropWhile isBlank).reverse)
      isBlank
    have hfirst : (s.toList.dropWhile isBlank).reverse.getLast? = some c := by
      rw [← hspaces, List.getLast?_append, h]
      rfl
    rw [List.getLast?_reverse] at hfirst
    exact hnot _ hfirst
  · exact hnot _ h

end FeedQuery.Text
