import FeedQuery.Proofs.Outcome
import FeedQuery.Settings
import Mathlib.Tactic.MkIffOfInductiveProp

/-!
What variables make of settings. Each of the three keys counts by itself, by the values that it is
given in their order, and no other key counts. So variables that are given once may come in any
order.
-/
namespace FeedQuery.Settings

variable {key : String} {vars : List (String × String)} {s s' : Settings}

/-- The trimmed values that variables give a key, one after the other. -/
def given (key : String) (vars : List (String × String)) : List String :=
  vars.filterMap fun v => if v.1 = key then some (Text.trim v.2) else none

@[simp] theorem given_nil : given key [] = [] := rfl

theorem given_cons (v : String × String) (vars : List (String × String)) :
    given key (v :: vars) = given key [v] ++ given key vars := by
  by_cases h : v.1 = key <;> simp [given, h]

@[simp] theorem given_self (value : String) : given key [(key, value)] = [Text.trim value] := by
  simp [given]

theorem given_of_ne {other : String} (h : other ≠ key) (value : String) :
    given key [(other, value)] = [] := by
  simp [given, h]

/-- The page size that a trimmed value denotes. -/
def size? (value : String) : Option PageSize := (Text.word? value).bind PageSize.ofNat?

theorem readSize_eq_ok_iff {value : String} {size : PageSize} :
    readSize key value = .ok size ↔ size? value = some size := by
  unfold readSize size?
  cases (Text.word? value).bind PageSize.ofNat? <;> simp

/-- A page size after values that are taken over: the last one, if each denotes one. -/
def sizeAfter? (start : PageSize) : List String → Option PageSize
  | [] => some start
  | value :: values => (size? value).bind fun size => sizeAfter? size values

theorem sizeAfter?_append (start : PageSize) (xs ys : List String) :
    sizeAfter? start (xs ++ ys) = (sizeAfter? start xs).bind (sizeAfter? · ys) := by
  induction xs generalizing start with
  | nil => rfl
  | cons value xs ih => simp [sizeAfter?, ih, Option.bind_assoc]

/-- An identity after values that are taken over: the last one that is not empty. -/
def selfIdAfter? (start? : Option String) : List String → Option String
  | [] => start?
  | value :: values => selfIdAfter? (if value = "" then start? else some value) values

theorem selfIdAfter?_append (start? : Option String) (xs ys : List String) :
    selfIdAfter? start? (xs ++ ys) = selfIdAfter? (selfIdAfter? start? xs) ys := by
  induction xs generalizing start? with
  | nil => rfl
  | cons value xs ih => simp [selfIdAfter?, ih]

/-- What settings become when variables are taken over. -/
@[mk_iff]
structure Becomes (s : Settings) (vars : List (String × String)) (s' : Settings) : Prop where
  pageSize : sizeAfter? s.pageSize (given pageSizeKey vars) = some s'.pageSize
  maximum : sizeAfter? s.maximum (given maximumKey vars) = some s'.maximum
  selfId : selfIdAfter? s.selfId? (given selfIdKey vars) = s'.selfId?

theorem becomes_nil_iff : s.Becomes [] s' ↔ s = s' := by
  constructor
  · rintro ⟨hsize, hmaximum, hid⟩
    obtain ⟨_, _, _⟩ := s
    simp_all [sizeAfter?, selfIdAfter?]
  · rintro rfl
    exact ⟨rfl, rfl, rfl⟩

theorem becomes_cons_iff {v : String × String} :
    s.Becomes (v :: vars) s' ↔ ∃ t, s.Becomes [v] t ∧ t.Becomes vars s' := by
  constructor
  · rintro ⟨hsize, hmaximum, hid⟩
    rw [given_cons, sizeAfter?_append, Option.bind_eq_some_iff] at hsize hmaximum
    rw [given_cons, selfIdAfter?_append] at hid
    obtain ⟨size, hsize, hsize'⟩ := hsize
    obtain ⟨maximum, hmaximum, hmaximum'⟩ := hmaximum
    exact ⟨⟨size, maximum, _⟩, ⟨hsize, hmaximum, rfl⟩, ⟨hsize', hmaximum', hid⟩⟩
  · rintro ⟨t, ⟨hsize, hmaximum, hid⟩, ⟨hsize', hmaximum', hid'⟩⟩
    constructor
    · rw [given_cons, sizeAfter?_append, hsize, Option.bind_some, hsize']
    · rw [given_cons, sizeAfter?_append, hmaximum, Option.bind_some, hmaximum']
    · rw [given_cons, selfIdAfter?_append, hid, hid']

/-- Taking one variable over. -/
theorem set_eq_ok_iff {value : String} :
    s.set key value = .ok s' ↔ s.Becomes [(key, value)] s' := by
  obtain ⟨hsize, hid, hid'⟩ :
      pageSizeKey ≠ maximumKey ∧ pageSizeKey ≠ selfIdKey ∧ maximumKey ≠ selfIdKey := by decide
  obtain ⟨pageSize, maximum, selfId?⟩ := s
  obtain ⟨pageSize', maximum', selfId?'⟩ := s'
  rw [set, becomes_iff]
  by_cases hkey : key = pageSizeKey
  · subst hkey
    rw [if_pos rfl, given_self, given_of_ne hsize, given_of_ne hid, map_eq_ok_iff]
    cases h : size? (Text.trim value) <;> simp [readSize_eq_ok_iff, sizeAfter?, selfIdAfter?, h]
  · rw [if_neg hkey, given_of_ne hkey]
    by_cases hkey' : key = maximumKey
    · subst hkey'
      rw [if_pos rfl, given_self, given_of_ne hid', map_eq_ok_iff]
      cases h : size? (Text.trim value) <;> simp [readSize_eq_ok_iff, sizeAfter?, selfIdAfter?, h]
    · rw [if_neg hkey', given_of_ne hkey']
      by_cases hkey'' : key = selfIdKey
      · subst hkey''
        by_cases hempty : Text.trim value = "" <;> simp [hempty, sizeAfter?, selfIdAfter?]
      · simp [given_of_ne hkey'', hkey'', sizeAfter?, selfIdAfter?]

/-- Taking variables over, one after the other. -/
theorem setAll_eq_ok_iff : s.setAll vars = .ok s' ↔ s.Becomes vars s' := by
  induction vars generalizing s with
  | nil =>
    rw [becomes_nil_iff, setAll, Except.ok.injEq]
  | cons v vars ih =>
    rw [becomes_cons_iff, setAll, bind_eq_ok_iff]
    simp only [set_eq_ok_iff, ih]

theorem validate_eq_ok_iff :
    s.validate = .ok s' ↔ s = s' ∧ s'.pageSize.val ≤ s'.maximum.val := by
  unfold validate
  constructor
  · intro h
    split at h
    · cases h
    · rename_i hle
      cases h
      exact ⟨rfl, Nat.le_of_not_lt hle⟩
  · rintro ⟨rfl, hle⟩
    rw [if_neg (Nat.not_lt.2 hle)]

/-- The settings that variables give. -/
theorem ofVars_eq_ok_iff :
    ofVars vars = .ok s ↔ default.Becomes vars s ∧ s.pageSize.val ≤ s.maximum.val := by
  rw [ofVars, bind_eq_ok_iff]
  simp only [setAll_eq_ok_iff, validate_eq_ok_iff]
  constructor
  · rintro ⟨s, hs, rfl, hle⟩
    exact ⟨hs, hle⟩
  · rintro ⟨hs, hle⟩
    exact ⟨s, hs, rfl, hle⟩

/-- Variables that give each key the same values give the same settings, if any. -/
theorem ofVars_congr {vars' : List (String × String)}
    (h : ∀ key, given key vars = given key vars') : ofVars vars = .ok s ↔ ofVars vars' = .ok s := by
  simp only [ofVars_eq_ok_iff, becomes_iff, h]

theorem given_eq_nil (h : key ∉ vars.map Prod.fst) : given key vars = [] := by
  rw [given, List.filterMap_eq_nil_iff]
  intro v hv
  have hne : v.1 ≠ key := by
    rintro rfl
    exact h (List.mem_map_of_mem hv)
  rw [if_neg hne]

/-- A key that is given once has one value at most. -/
theorem given_of_nodup (h : (vars.map Prod.fst).Nodup) (key : String) :
    given key vars = ((vars.lookup key).map Text.trim).toList := by
  induction vars with
  | nil => rfl
  | cons v vars ih =>
    obtain ⟨k, value⟩ := v
    obtain ⟨hnot, hnodup⟩ := List.nodup_cons.1 h
    rw [given_cons]
    by_cases hk : k = key
    · subst hk
      simp [given_eq_nil hnot]
    · have hbeq : (key == k) = false := by simpa using Ne.symm hk
      rw [given_of_ne hk, ih hnodup, List.lookup_cons, hbeq]
      rfl

/-- Variables that are given once give the same settings in any order, or in none. -/
theorem ofVars_perm {vars' : List (String × String)} (h : (vars.map Prod.fst).Nodup)
    (hperm : vars'.Perm vars) : ofVars vars' = .ok s ↔ ofVars vars = .ok s := by
  apply ofVars_congr
  intro key
  have hgiven : (given key vars').Perm (given key vars) := hperm.filterMap _
  rw [given_of_nodup h] at hgiven ⊢
  cases hvalue : vars.lookup key with
  | none =>
    rw [hvalue] at hgiven
    exact hgiven.eq_nil
  | some value =>
    rw [hvalue] at hgiven
    exact List.perm_singleton.1 hgiven

end FeedQuery.Settings
