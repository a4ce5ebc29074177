import FeedQuery.Environment
import FeedQuery.Proofs.Outcome
import FeedQuery.Proofs.Settings.Variables

/-!
Environment files loaded one after the other. A file that reads gives each variable on its lines the
value on the last of them, one that does not read gives nothing, and so every variable ends up with
its last value of all. The settings depend on those values alone.
-/
namespace FeedQuery.Environment

/-- The variable on a trimmed line and its value, unless the line is blank or a comment. -/
def assignment? (cs : List Char) : Option (String × String) :=
  match cs with
  | [] => none
  | '#' :: _ => none
  | cs => (Text.cutOnce? '=' cs).map fun (key, value) =>
    (String.ofList (Text.trimChars key), String.ofList (unquote (Text.trimChars value)))

/-- The variables on the lines of a text and their values, line by line. -/
def assignments (text : String) : List (String × String) :=
  (Text.cutChars '\n' text.toList).filterMap fun line => assignment? (Text.trimChars line)

theorem eq_assignment?_of_readLine {n : Nat} {cs : List Char} {v? : Option (String × String)}
    (h : readLine n cs = .ok v?) : v? = assignment? cs := by
  unfold readLine at h
  split at h
  · cases h
    rfl
  · cases h
    rfl
  · rename_i hnil hcomment
    cases hcut : Text.cutOnce? '=' cs with
    | none => simp [hcut] at h
    | some cut =>
      rw [hcut] at h
      dsimp only at h
      split at h
      · cases h
      · cases h
        rw [assignment?, hcut]
        · rfl
        · exact hnil
        · exact hcomment

theorem eq_filterMap_of_readLines {n : Nat} {lines : List (List Char)}
    {pairs : List (String × String)} (h : readLines n lines = .ok pairs) :
    pairs = lines.filterMap fun line => assignment? (Text.trimChars line) := by
  induction lines generalizing n pairs with
  | nil =>
    cases h
    rfl
  | cons line lines ih =>
    rw [readLines] at h
    obtain ⟨v?, hv, h⟩ := bind_eq_ok_iff.1 h
    obtain ⟨rest, hrest, h⟩ := bind_eq_ok_iff.1 h
    cases h
    rw [eq_assignment?_of_readLine hv, ih hrest, List.filterMap_cons]
    cases assignment? (Text.trimChars line) <;> rfl

/-- A file that reads sets what its lines say. -/
theorem eq_assignments_of_readFile {text : String} {pairs : List (String × String)}
    (h : readFile text = .ok pairs) : pairs = assignments text := eq_filterMap_of_readLines h

/-- The last value that a key is given. -/
def lastValue? (key : String) (pairs : List (String × String)) : Option String :=
  pairs.reverse.lookup key

theorem lastValue?_append (key : String) (xs ys : List (String × String)) :
    lastValue? key (xs ++ ys) = (lastValue? key ys).or (lastValue? key xs) := by
  rw [lastValue?, List.reverse_append, List.lookup_append]
  rfl

theorem lastValue?_cons (key : String) (v : String × String) (pairs : List (String × String)) :
    lastValue? key (v :: pairs) =
      (lastValue? key pairs).or (if key = v.1 then some v.2 else none) := by
  rw [← List.singleton_append, lastValue?_append]
  congr 1
  exact lookup_setVar v.1 v.2 key []

theorem lastValue?_eq_none_iff {key : String} {pairs : List (String × String)} :
    lastValue? key pairs = none ↔ key ∉ pairs.map Prod.fst := by
  simp only [lastValue?, List.lookup_eq_none_iff, List.mem_reverse, List.mem_map, bne_iff_ne]
  constructor
  · rintro h ⟨v, hv, rfl⟩
    exact h v hv rfl
  · rintro h v hv rfl
    exact h ⟨v, hv, rfl⟩

/-- The last value that a key is given is the one behind which it is given no other. -/
theorem lastValue?_eq_some_iff {key value : String} {pairs : List (String × String)} :
    lastValue? key pairs = some value ↔ ∃ before behind,
      pairs = before ++ (key, value) :: behind ∧ key ∉ behind.map Prod.fst := by
  constructor
  · intro h
    obtain ⟨behind, before, hpairs, hbehind⟩ := List.lookup_eq_some_iff.1 h
    refine ⟨before.reverse, behind.reverse, ?_, ?_⟩
    · rw [← List.reverse_reverse pairs, hpairs]
      simp
    · rw [← lastValue?_eq_none_iff, lastValue?, List.reverse_reverse]
      exact List.lookup_eq_none_iff.2 hbehind
  · rintro ⟨before, behind, rfl, hbehind⟩
    rw [lastValue?_append, lastValue?_cons, lastValue?_eq_none_iff.2 hbehind, if_pos rfl]
    rfl

/-- Setting variables one after the other leaves each with its last value. -/
theorem get?_setAll (e : Environment) (pairs : List (String × String)) (key : String) :
    (e.setAll pairs).get? key = (lastValue? key pairs).or (e.get? key) := by
  induction pairs generalizing e with
  | nil => rfl
  | cons v pairs ih =>
    rw [lastValue?_cons, Option.or_assoc]
    refine (ih (e.set v.1 v.2)).trans ?_
    rw [get?_set]
    by_cases h : key = v.1 <;> simp [h]

/-- What files set that are loaded one after the other: the assignments of those that read. -/
def accepted (texts : List String) : List (String × String) :=
  (texts.filter fun text => (readFile text).isOk).flatMap assignments

theorem setAll_append (e : Environment) (xs ys : List (String × String)) :
    e.setAll (xs ++ ys) = (e.setAll xs).setAll ys := List.foldl_append

theorem loadFile_of_error {e : Environment} {text : String} {error : EnvironmentError}
    (h : readFile text = .error error) : e.loadFile text = (.error error, e) := by
  rw [loadFile, h]

theorem loadFile_of_ok {e : Environment} {text : String} {pairs : List (String × String)}
    (h : readFile text = .ok pairs) : e.loadFile text = (.ok (), e.setAll (assignments text)) := by
  rw [loadFile, h, eq_assignments_of_readFile h]

/-- Files that are loaded set all that those among them say that read. -/
theorem loadFiles_eq_setAll (e : Environment) (texts : List String) :
    e.loadFiles texts = e.setAll (accepted texts) := by
  induction texts generalizing e with
  | nil => rfl
  | cons text texts ih =>
    rw [loadFiles, ih]
    cases h : readFile text with
    | error error =>
      simp [loadFile_of_error h, accepted, h, Except.isOk, Except.toBool]
    | ok pairs =>
      simp [loadFile_of_ok h, accepted, h, Except.isOk, Except.toBool, setAll_append]

/-- Settings depend on the values of the variables alone. -/
theorem settings_congr {e e' : Environment} (h : ∀ key, e.get? key = e'.get? key) (s : Settings) :
    e.settings = .ok s ↔ e'.settings = .ok s := by
  apply Settings.ofVars_congr
  intro key
  have hkey : e.vars.lookup key = e'.vars.lookup key := h key
  rw [Settings.given_of_nodup e.nodup, Settings.given_of_nodup e'.nodup, hkey]

theorem exists_lastValue? {key : String} {pairs : List (String × String)}
    (h : key ∈ pairs.map Prod.fst) : ∃ value, lastValue? key pairs = some value := by
  apply Option.ne_none_iff_exists'.1
  intro hnone
  exact lastValue?_eq_none_iff.1 hnone h

/-- A value that is overridden behind it is not the last one. -/
theorem lastValue?_of_overridden {name value : String} {before behind : List (String × String)}
    (h : name ∈ behind.map Prod.fst) (key : String) :
    lastValue? key (before ++ (name, value) :: behind) = lastValue? key (before ++ behind) := by
  rw [lastValue?_append, lastValue?_append, lastValue?_cons]
  by_cases hkey : key = name
  · subst hkey
    obtain ⟨last, hlast⟩ := exists_lastValue? h
    simp [hlast]
  · simp [hkey]

theorem get?_loadFiles (e : Environment) (texts : List String) (key : String) :
    (e.loadFiles texts).get? key = (lastValue? key (accepted texts)).or (e.get? key) := by
  rw [loadFiles_eq_setAll, get?_setAll]

/-- A variable that a file sets may have had any value before. -/
theorem get?_loadFiles_set {e : Environment} {texts : List String} {name : String}
    (h : name ∈ (accepted texts).map Prod.fst) (value key : String) :
    ((e.set name value).loadFiles texts).get? key = (e.loadFiles texts).get? key := by
  rw [get?_loadFiles, get?_loadFiles, get?_set]
  by_cases hkey : key = name
  · subst hkey
    obtain ⟨last, hlast⟩ := exists_lastValue? h
    simp [hlast]
  · simp [hkey]

/-- A file that does not read leaves the variables as they were. One that reads sets each variable
on its lines to the value on the last of them and leaves all others alone, and so files loaded one
after the other leave each variable with its last value in those that read. The settings that follow
are the same in whatever order the variables are handed over, or there are none in any order. A
value that a later line or file overrides has no effect on them, be it a page size that does not
read. -/
theorem files_leave_last_values (e : Environment) :
    (∀ text error, readFile text = .error error → e.loadFile text = (.error error, e)) ∧
    (∀ text pairs, readFile text = .ok pairs → (e.loadFile text).1 = .ok () ∧
      (∀ key value before behind, assignments text = before ++ (key, value) :: behind →
        key ∉ behind.map Prod.fst → (e.loadFile text).2.get? key = some value) ∧
      ∀ key, key ∉ (assignments text).map Prod.fst →
        (e.loadFile text).2.get? key = e.get? key) ∧
    (∀ texts key,
      (e.loadFiles texts).get? key = (lastValue? key (accepted texts)).or (e.get? key)) ∧
    (∀ texts vars, vars.Perm (e.loadFiles texts).vars → ∀ s,
      Settings.ofVars vars = .ok s ↔ (e.loadFiles texts).settings = .ok s) ∧
    (∀ texts before key value behind, accepted texts = before ++ (key, value) :: behind →
      key ∈ behind.map Prod.fst → ∀ s,
        (e.loadFiles texts).settings = .ok s ↔ (e.setAll (before ++ behind)).settings = .ok s) ∧
    ∀ texts key, key ∈ (accepted texts).map Prod.fst → ∀ value s,
      ((e.set key value).loadFiles texts).settings = .ok s ↔
        (e.loadFiles texts).settings = .ok s := by
  refine ⟨fun text error h => loadFile_of_error h, ?_, get?_loadFiles e, ?_, ?_, ?_⟩
  · intro text pairs h
    rw [loadFile_of_ok h]
    refine ⟨rfl, ?_, ?_⟩
    · intro key value before behind htext hkey
      rw [get?_setAll, lastValue?_eq_some_iff.2 ⟨before, behind, htext, hkey⟩]
      rfl
    · intro key hkey
      rw [get?_setAll, lastValue?_eq_none_iff.2 hkey]
      rfl
  · intro texts vars hperm s
    exact Settings.ofVars_perm (e.loadFiles texts).nodup hperm
  · intro texts before name value behind htexts hname
    apply settings_congr
    intro key
    rw [get?_loadFiles, get?_setAll, htexts, lastValue?_of_overridden hname]
  · intro texts name hname value
    exact settings_congr (get?_loadFiles_set hname value)

/-- A page size that does not read stands in the environment and in a line of a file, and the line
behind it overrides both. Another file sets the size to zero, but has a malformed line. -/
theorem files_leave_last_values_overridden :
    let e := ofList [("FEEDQ_PAGE_SIZE", "lots"), ("FEEDQ_SELF_ID", "me")]
    let broken := "FEEDQ_PAGE_SIZE=0\nnonsense"
    let sound := "FEEDQ_PAGE_SIZE = many\n# sizes\nFEEDQ_PAGE_SIZE='25'"
    e.loadFile broken = (.error (.malformedLine 2), e) ∧
    (e.loadFile sound).2.get? "FEEDQ_PAGE_SIZE" = some "25" ∧
    (e.loadFile sound).2.get? "FEEDQ_SELF_ID" = e.get? "FEEDQ_SELF_ID" ∧
    (e.loadFiles [sound, broken]).get? "FEEDQ_PAGE_SIZE" = some "25" ∧
    (e.loadFiles [sound, broken]).settings.toOption.map (·.pageSize.val) = some 25 ∧
    ∀ s, (Settings.ofVars [("FEEDQ_SELF_ID", "me"), ("FEEDQ_PAGE_SIZE", "25")] = .ok s ↔
        (e.loadFiles [sound, broken]).settings = .ok s) ∧
      ((e.loadFiles [sound, broken]).settings = .ok s ↔
        (e.setAll [("FEEDQ_PAGE_SIZE", "25")]).settings = .ok s) ∧
      (((e.set "FEEDQ_PAGE_SIZE" "none").loadFiles [sound, broken]).settings = .ok s ↔
        (e.loadFiles [sound, broken]).settings = .ok s) := by
  intro e broken sound
  obtain ⟨hbroken, hsound, hlast, horder, hline, hstart⟩ := files_leave_last_values e
  have hlines : assignments sound =
      [("FEEDQ_PAGE_SIZE", "many"), ("FEEDQ_PAGE_SIZE", "25")] := by decide +kernel
  have haccepted : accepted [sound, broken] = assignments sound := by decide +kernel
  have hmalformed : readFile broken = .error (.malformedLine 2) := by
    have hcut : Text.cutChars '\n' broken.toList =
        ["FEEDQ_PAGE_SIZE=0".toList, "nonsense".toList] := by decide +kernel
    rw [readFile, hcut]
    rfl
  have hread := toOption_eq_some_iff.1 (show (readFile sound).toOption =
    some [("FEEDQ_PAGE_SIZE", "many"), ("FEEDQ_PAGE_SIZE", "25")] by decide +kernel)
  obtain ⟨-, hset, hother⟩ := hsound sound _ hread
  refine ⟨hbroken broken _ hmalformed, ?_, ?_, ?_, by decide +kernel, fun s => ⟨?_, ?_, ?_⟩⟩
  · exact hset "FEEDQ_PAGE_SIZE" "25" [("FEEDQ_PAGE_SIZE", "many")] [] hlines (by decide)
  · exact hother "FEEDQ_SELF_ID" (by decide +kernel)
  · rw [hlast, haccepted, hlines]
    decide +kernel
  · exact horder [sound, broken] _ (by decide +kernel) s
  · exact hline [sound, broken] [] "FEEDQ_PAGE_SIZE" "many" [("FEEDQ_PAGE_SIZE", "25")]
      (haccepted.trans hlines) (by decide) s
  · exact hstart [sound, broken] "FEEDQ_PAGE_SIZE" (by decide +kernel) "none" s

end FeedQuery.Environment
