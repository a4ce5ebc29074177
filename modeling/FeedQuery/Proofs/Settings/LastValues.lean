import FeedQuery.Proofs.Settings.Variables
import FeedQuery.Proofs.Text.Trim
import Mathlib.Data.List.Induction

/-!
Which variables give settings, and which settings they give. Every value of a page size has to be
the decimal text of a positive word, also one that is overridden, but only the last ones are
compared. Of the values of the identity those that are blank do not count.
-/
namespace FeedQuery

namespace Text

/-- What decimal digits denote: the last one counts ones, and those before it tens. -/
inductive DigitsDenote : List Char → Nat → Prop where
  | one {c : Char} (h : c.isDigit = true) : DigitsDenote [c] (c.toNat - '0'.toNat)
  | more {cs : List Char} {n : Nat} {c : Char} (hcs : DigitsDenote cs n) (h : c.isDigit = true) :
      DigitsDenote (cs ++ [c]) (10 * n + (c.toNat - '0'.toNat))

/-- The decimal texts of a number: digits, with or without a plus sign in front. -/
def IsDecimal (s : String) (n : Nat) : Prop :=
  ∃ cs, DigitsDenote cs n ∧ (s.toList = cs ∨ s.toList = '+' :: cs)

theorem digitsDenote_iff {cs : List Char} {n : Nat} : DigitsDenote cs n ↔
    cs ≠ [] ∧ (∀ c ∈ cs, c.isDigit = true) ∧ Nat.ofDigitChars 10 cs 0 = n := by
  constructor
  · intro h
    induction h with
    | one h => simp [h, Nat.ofDigitChars_cons]
    | more hcs h ih =>
      obtain ⟨-, hdigits, rfl⟩ := ih
      refine ⟨by simp, ?_, by rw [Nat.ofDigitChars_append]; rfl⟩
      intro d hd
      rcases List.mem_append.1 hd with hd | hd
      · exact hdigits d hd
      · rw [List.mem_singleton.1 hd]
        exact h
  · rintro ⟨hne, hdigits, rfl⟩
    induction cs using List.reverseRecOn with
    | nil => exact absurd rfl hne
    | append_singleton cs c ih =>
      have hc : c.isDigit = true := hdigits c (by simp)
      rw [Nat.ofDigitChars_append]
      by_cases hcs : cs = []
      · subst hcs
        simpa [Nat.ofDigitChars_cons] using DigitsDenote.one hc
      · exact .more (ih hcs fun d hd => hdigits d (List.mem_append_left _ hd)) hc

theorem dropPlus_of_digits {cs : List Char} (h : ∀ c ∈ cs, c.isDigit = true) :
    dropPlus cs = cs := by
  unfold dropPlus
  split
  · exact absurd (h '+' List.mem_cons_self) (by decide)
  · rfl

theorem eq_or_eq_cons_dropPlus (cs : List Char) : cs = dropPlus cs ∨ cs = '+' :: dropPlus cs := by
  unfold dropPlus
  split
  · exact .inr rfl
  · exact .inl rfl

/-- The texts that denote a word are its decimal texts. -/
theorem word?_eq_some_iff {s : String} {n : Nat} :
    word? s = some n ↔ IsDecimal s n ∧ n < UInt64.size := by
  simp only [word?, Option.ite_none_right_eq_some, Option.some.injEq, List.all_eq_true]
  constructor
  · rintro ⟨⟨hne, hdigits, hlt⟩, rfl⟩
    exact ⟨⟨_, digitsDenote_iff.2 ⟨hne, hdigits, rfl⟩, eq_or_eq_cons_dropPlus _⟩, hlt⟩
  · rintro ⟨⟨cs, hcs, hs⟩, hlt⟩
    obtain ⟨hne, hdigits, rfl⟩ := digitsDenote_iff.1 hcs
    have hdrop : dropPlus s.toList = cs := by
      rcases hs with hs | hs
      · rw [hs, dropPlus_of_digits hdigits]
      · rw [hs, dropPlus]
    rw [hdrop]
    exact ⟨⟨hne, hdigits, hlt⟩, rfl⟩

end Text

namespace Settings

variable {vars : List (String × String)} {s : Settings}

/-- The decimal texts of a positive word. -/
def IsSize (value : String) (n : Nat) : Prop :=
  Text.IsDecimal value n ∧ 0 < n ∧ n < UInt64.size

/-- The size that values leave: what the last one denotes, or the size before there are any. -/
def LastSize (start : Nat) (values : List String) (n : Nat) : Prop :=
  (values = [] ∧ n = start) ∨ ∃ value, values.getLast? = some value ∧ IsSize value n

theorem size?_eq_some_iff {value : String} {size : PageSize} :
    size? value = some size ↔ IsSize value size.val := by
  have hsize : ∀ n, PageSize.ofNat? n = some size ↔ n = size.val := by
    intro n
    obtain ⟨m, hm⟩ := size
    simp only [PageSize.ofNat?, Option.dite_none_right_eq_some, Option.some.injEq,
      PageSize.mk.injEq]
    constructor
    · rintro ⟨-, rfl⟩
      rfl
    · rintro rfl
      exact ⟨hm, rfl⟩
  simp only [size?, Option.bind_eq_some_iff, hsize, Text.word?_eq_some_iff]
  constructor
  · rintro ⟨n, ⟨hdecimal, hlt⟩, rfl⟩
    exact ⟨hdecimal, size.pos, hlt⟩
  · rintro ⟨hdecimal, -, hlt⟩
    exact ⟨size.val, ⟨hdecimal, hlt⟩, rfl⟩

theorem exists_isSize_iff {value : String} :
    (∃ n, IsSize value n) ↔ ∃ size, size? value = some size := by
  simp only [size?_eq_some_iff]
  constructor
  · rintro ⟨n, h⟩
    exact ⟨⟨n, h.2.1⟩, h⟩
  · rintro ⟨size, h⟩
    exact ⟨size.val, h⟩

theorem exists_sizeAfter?_iff {start : PageSize} {values : List String} :
    (∃ size, sizeAfter? start values = some size) ↔ ∀ value ∈ values, ∃ n, IsSize value n := by
  induction values generalizing start with
  | nil => simp [sizeAfter?]
  | cons value values ih =>
    rw [List.forall_mem_cons, exists_isSize_iff]
    simp only [sizeAfter?, Option.bind_eq_some_iff]
    constructor
    · rintro ⟨size, first, hfirst, h⟩
      exact ⟨⟨first, hfirst⟩, ih.1 ⟨size, h⟩⟩
    · rintro ⟨⟨first, hfirst⟩, h⟩
      obtain ⟨size, hsize⟩ : ∃ size, sizeAfter? first values = some size := ih.2 h
      exact ⟨size, first, hfirst, hsize⟩

/-- Values that are taken over one after the other all have to be sizes, and the last one stays. -/
theorem sizeAfter?_eq_some_iff {start size : PageSize} {values : List String} :
    sizeAfter? start values = some size ↔
      (∀ value ∈ values, ∃ n, IsSize value n) ∧ LastSize start.val values size.val := by
  induction values using List.reverseRecOn with
  | nil =>
    obtain ⟨n, hn⟩ := start
    obtain ⟨m, hm⟩ := size
    simp [sizeAfter?, LastSize, eq_comm]
  | append_singleton values value =>
    have hlast : LastSize start.val (values ++ [value]) size.val ↔ IsSize value size.val := by
      simp [LastSize]
    have hbefore : (∃ before, sizeAfter? start values = some before) ↔
      ∀ value ∈ values, ∃ n, IsSize value n := exists_sizeAfter?_iff
    rw [hlast, ← size?_eq_some_iff, List.forall_mem_append, List.forall_mem_singleton, ← hbefore,
      exists_isSize_iff, sizeAfter?_append, Option.bind_eq_some_iff]
    simp only [sizeAfter?, Option.bind_fun_some]
    constructor
    · rintro ⟨before, hbefore, hsize⟩
      exact ⟨⟨⟨before, hbefore⟩, ⟨size, hsize⟩⟩, hsize⟩
    · rintro ⟨⟨⟨before, hbefore⟩, -⟩, hsize⟩
      exact ⟨before, hbefore, hsize⟩

theorem selfIdAfter?_eq (start? : Option String) (values : List String) :
    selfIdAfter? start? values = (values.filter (· ≠ "")).getLast?.or start? := by
  induction values generalizing start? with
  | nil => rfl
  | cons value values ih =>
    rw [selfIdAfter?, ih]
    by_cases h : value = ""
    · simp [h]
    · simp [h, List.getLast?_cons]

theorem mem_given_iff {key value : String} :
    value ∈ given key vars ↔ ∃ v ∈ vars, v.1 = key ∧ Text.trim v.2 = value := by
  simp [given]

/-- The keys that mean something. -/
def keys : List String := [pageSizeKey, maximumKey, selfIdKey]

theorem set_of_notMem {key : String} (h : key ∉ keys) (s : Settings) (value : String) :
    s.set key value = .ok s := by
  simp only [keys, List.mem_cons, List.not_mem_nil, or_false, not_or] at h
  obtain ⟨hsize, hmaximum, hid⟩ := h
  simp [set, hsize, hmaximum, hid]

theorem setAll_filter (s : Settings) (vars : List (String × String)) :
    s.setAll (vars.filter (·.1 ∈ keys)) = s.setAll vars := by
  induction vars generalizing s with
  | nil => rfl
  | cons v vars ih =>
    by_cases h : v.1 ∈ keys
    · rw [List.filter_cons_of_pos (by simpa using h), setAll, setAll]
      simp only [ih]
    · rw [List.filter_cons_of_neg (by simpa using h), ih, setAll, set_of_notMem h]
      rfl

/-- Variables are taken over if all their page sizes read, to the sizes that were given last. -/
theorem becomes_iff_lastSize {t : Settings} : t.Becomes vars s ↔
    (∀ v ∈ vars, v.1 = pageSizeKey ∨ v.1 = maximumKey → ∃ n, IsSize (Text.trim v.2) n) ∧
    LastSize t.pageSize.val (given pageSizeKey vars) s.pageSize.val ∧
    LastSize t.maximum.val (given maximumKey vars) s.maximum.val ∧
    s.selfId? = ((given selfIdKey vars).filter (· ≠ "")).getLast?.or t.selfId? := by
  rw [becomes_iff, sizeAfter?_eq_some_iff, sizeAfter?_eq_some_iff, selfIdAfter?_eq]
  simp only [mem_given_iff]
  constructor
  · rintro ⟨⟨hsizes, hsize⟩, ⟨hmaximums, hmaximum⟩, hid⟩
    refine ⟨?_, hsize, hmaximum, hid.symm⟩
    rintro v hv (hkey | hkey)
    · exact hsizes _ ⟨v, hv, hkey, rfl⟩
    · exact hmaximums _ ⟨v, hv, hkey, rfl⟩
  · rintro ⟨hread, hsize, hmaximum, hid⟩
    refine ⟨⟨?_, hsize⟩, ⟨?_, hmaximum⟩, hid.symm⟩
    · rintro _ ⟨v, hv, hkey, rfl⟩
      exact hread v hv (.inl hkey)
    · rintro _ ⟨v, hv, hkey, rfl⟩
      exact hread v hv (.inr hkey)

theorem LastSize.pos {start n : Nat} {values : List String} (h : LastSize start values n)
    (hstart : 0 < start) : 0 < n := by
  rcases h with ⟨-, rfl⟩ | ⟨value, -, -, hpos, -⟩
  · exact hstart
  · exact hpos

/-- Variables give settings exactly if every value of the two page sizes reads as one, and the page
size that is given last, or 100, is at most the maximum that is given last, or 10000. These are the
sizes of the settings, and their identity is the last one that is not blank, without white space at
its ends. Other keys mean nothing, and keys that are all different may come in any order. -/
theorem last_values_count (vars : List (String × String)) :
    ((∃ s, ofVars vars = .ok s) ↔
      (∀ v ∈ vars, v.1 = pageSizeKey ∨ v.1 = maximumKey → ∃ n, IsSize (Text.trim v.2) n) ∧
      ∃ size maximum, LastSize 100 (given pageSizeKey vars) size ∧
        LastSize 10000 (given maximumKey vars) maximum ∧ size ≤ maximum) ∧
    (∀ s, ofVars vars = .ok s →
      LastSize 100 (given pageSizeKey vars) s.pageSize.val ∧
      LastSize 10000 (given maximumKey vars) s.maximum.val ∧
      s.selfId? = ((given selfIdKey vars).filter (· ≠ "")).getLast? ∧
      ∀ id, s.selfId? = some id → id ≠ "" ∧ Text.Unpadded id) ∧
    ofVars (vars.filter (·.1 ∈ keys)) = ofVars vars ∧
    ((vars.map Prod.fst).Nodup → ∀ vars', vars'.Perm vars → ∀ s,
      ofVars vars' = .ok s ↔ ofVars vars = .ok s) := by
  refine ⟨⟨?_, ?_⟩, ?_, ?_, fun hnodup vars' hperm s => ofVars_perm hnodup hperm⟩
  · rintro ⟨s, h⟩
    obtain ⟨hbecomes, hle⟩ := ofVars_eq_ok_iff.1 h
    obtain ⟨hread, hsize, hmaximum, -⟩ := becomes_iff_lastSize.1 hbecomes
    exact ⟨hread, _, _, hsize, hmaximum, hle⟩
  · rintro ⟨hread, size, maximum, hsize, hmaximum, hle⟩
    have hpos : 0 < size := hsize.pos (by decide)
    have hbecomes : default.Becomes vars ⟨⟨size, hpos⟩, ⟨maximum, by omega⟩, _⟩ :=
      becomes_iff_lastSize.2 ⟨hread, hsize, hmaximum, rfl⟩
    exact ⟨_, ofVars_eq_ok_iff.2 ⟨hbecomes, hle⟩⟩
  · intro s h
    obtain ⟨-, hsize, hmaximum, hid⟩ := becomes_iff_lastSize.1 (ofVars_eq_ok_iff.1 h).1
    rw [show default.selfId? = none from rfl, Option.or_none] at hid
    refine ⟨hsize, hmaximum, hid, fun id hsome => ?_⟩
    have hmem : id ∈ (given selfIdKey vars).filter (· ≠ "") :=
      List.mem_of_getLast? (hid.symm.trans hsome)
    obtain ⟨hgiven, hne⟩ := List.mem_filter.1 hmem
    obtain ⟨v, -, -, rfl⟩ := mem_given_iff.1 hgiven
    exact ⟨by simpa using hne, Text.unpadded_trim v.2⟩
  · rw [ofVars, setAll_filter]
    rfl

/-- A maximum below the usual page size comes before the page size that fits it, or behind it, and
an identity in white space before one that is blank. -/
theorem last_values_count_reversed :
    let vars := [("FEEDQ_MAX_PAGE_SIZE", " +007 "), ("FEEDQ_SELF_ID", " @me\n"),
      ("FEEDQ_PAGE_SIZE", "7"), ("feedq_page_size", "none")]
    let blank := vars ++ [("FEEDQ_SELF_ID", " ")]
    let s : Settings := ⟨⟨7, by decide⟩, ⟨7, by decide⟩, some "@me"⟩
    (vars.map Prod.fst).Nodup ∧ vars.reverse.Perm vars ∧ ofVars vars = .ok s ∧
      ofVars vars.reverse = .ok s ∧ ofVars blank = .ok s ∧
      s.selfId? = ((given selfIdKey blank).filter (· ≠ "")).getLast? ∧ Text.Unpadded "@me" := by
  intro vars blank s
  have hnodup : (vars.map Prod.fst).Nodup := by decide
  have hvars : ofVars vars = .ok s :=
    toOption_eq_some_iff.1 (show (ofVars vars).toOption = some s by decide +kernel)
  have hblank : ofVars blank = .ok s :=
    toOption_eq_some_iff.1 (show (ofVars blank).toOption = some s by decide +kernel)
  have hperm : vars.reverse.Perm vars := vars.reverse_perm
  obtain ⟨-, -, -, horder⟩ := last_values_count vars
  obtain ⟨-, hlast, -, -⟩ := last_values_count blank
  obtain ⟨-, -, hid, hunpadded⟩ := hlast s hblank
  exact ⟨hnodup, hperm, hvars, (horder hnodup _ hperm s).2 hvars, hblank, hid,
    (hunpadded "@me" rfl).2⟩

end Settings

end FeedQuery
