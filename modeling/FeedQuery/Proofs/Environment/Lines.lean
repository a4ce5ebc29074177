import FeedQuery.Environment
import FeedQuery.Proofs.FirstFault
import FeedQuery.Proofs.Text.Cut
import FeedQuery.Proofs.Text.Trim

/-!
Environment files line by line: a file reads if each of its lines is blank, is a comment or gives a
name a value, and the first line that does none of this is the error. What is written between quotes
is read back as it was.
-/
namespace FeedQuery.Environment

variable {n : Nat} {cs : List Char}

/-- What a file may have on a line, up to the white space around it: nothing, a comment, or a name
that is not white space alone and a value behind the first equals sign. -/
def Sound (cs : List Char) : Prop :=
  cs = [] ∨ (∃ comment, cs = '#' :: comment) ∨
    ∃ name value, cs = name ++ '=' :: value ∧ '=' ∉ name ∧ ∃ c ∈ name, Text.isBlank c = false

/-- What is wrong with a line that is not sound. -/
def fault (number : Nat) (cs : List Char) : EnvironmentError :=
  if '=' ∈ cs then .emptyKey number else .malformedLine number

/-- A line that is neither blank nor a comment is cut at its first equals sign. -/
theorem readLine_eq (hnil : cs ≠ []) (hcomment : ∀ comment, cs ≠ '#' :: comment) :
    readLine n cs = match Text.cutOnce? '=' cs with
      | none => .error (.malformedLine n)
      | some (key, value) =>
        if Text.trimChars key = [] then .error (.emptyKey n)
        else .ok (some (String.ofList (Text.trimChars key),
          String.ofList (unquote (Text.trimChars value)))) := by
  unfold readLine
  split
  · exact absurd rfl hnil
  · exact absurd rfl (hcomment _)
  · rfl

theorem exists_readLine_of_sound (h : Sound cs) : ∃ v?, readLine n cs = .ok v? := by
  by_cases hcomment : ∃ comment, cs = '#' :: comment
  · obtain ⟨comment, rfl⟩ := hcomment
    exact ⟨none, rfl⟩
  · rcases h with rfl | hcomment' | ⟨name, value, hcs, hname, c, hc, hblank⟩
    · exact ⟨none, rfl⟩
    · exact absurd hcomment' hcomment
    · have hnil : cs ≠ [] := by simp [hcs]
      have hkey : Text.trimChars name ≠ [] :=
        List.ne_nil_of_mem ((Text.mem_trimChars_iff hblank).2 hc)
      rw [readLine_eq hnil (not_exists.1 hcomment), Text.cutOnce?_eq_some_iff.2 ⟨hcs, hname⟩]
      exact ⟨_, if_neg hkey⟩

theorem readLine_of_not_sound (h : ¬ Sound cs) : readLine n cs = .error (fault n cs) := by
  have hnil : cs ≠ [] := fun hnil => h (.inl hnil)
  have hcomment : ∀ comment, cs ≠ '#' :: comment :=
    fun comment hcs => h (.inr (.inl ⟨comment, hcs⟩))
  rw [readLine_eq hnil hcomment, fault]
  cases hcut : Text.cutOnce? '=' cs with
  | none => rw [if_neg (Text.cutOnce?_eq_none_iff.1 hcut)]
  | some cut =>
    obtain ⟨name, value⟩ := cut
    obtain ⟨hcs, hname⟩ := Text.cutOnce?_eq_some_iff.1 hcut
    have hequals : '=' ∈ cs := by simp [hcs]
    have hblank : ∀ c ∈ name, Text.isBlank c = true := by
      intro c hc
      cases hnot : Text.isBlank c with
      | true => rfl
      | false => exact absurd (.inr (.inr ⟨name, value, hcs, hname, c, hc, hnot⟩)) h
    rw [if_pos hequals]
    exact if_pos (Text.trimChars_of_blank hblank)

theorem readLine_eq_error_iff {e : EnvironmentError} :
    readLine n cs = .error e ↔ ¬ Sound cs ∧ e = fault n cs := by
  by_cases h : Sound cs
  · obtain ⟨v?, hv⟩ := exists_readLine_of_sound (n := n) h
    simp [hv, h]
  · simp [readLine_of_not_sound h, h, eq_comm]

/-- A line that a file may have. -/
def Readable (line : String) : Prop := Sound (Text.trim line).toList

/-- What is wrong with a numbered line of a file. -/
def Flawed (q : String × Nat) (e : EnvironmentError) : Prop :=
  ¬ Readable q.1 ∧ e = fault q.2 (Text.trim q.1).toList

theorem exists_flawed_iff {q : String × Nat} : (∃ e, Flawed q e) ↔ ¬ Readable q.1 :=
  ⟨fun ⟨_, h⟩ => h.1, fun h => ⟨_, h, rfl⟩⟩

theorem readLine_reports (line : String) (n : Nat) :
    ReportsFirst Flawed [(line, n)] (readLine n (Text.trim line).toList) := by
  cases hread : readLine n (Text.trim line).toList with
  | error e => exact .here (readLine_eq_error_iff.1 hread)
  | ok v? =>
    refine .cons (fun e he => ?_) (.nil v?)
    cases hread.symm.trans (readLine_eq_error_iff.2 he)

theorem readLines_cons (n : Nat) (line : String) (lines : List String) :
    readLines n ((line :: lines).map String.toList) =
      readLine n (Text.trim line).toList >>= fun v? =>
        (readLines (n + 1) (lines.map String.toList)).map (v?.toList ++ ·) := by
  rw [Text.trim, String.toList_ofList]
  rfl

/-- Reading stops at the first line that a file may not have. -/
theorem readLines_reports (lines : List String) (n : Nat) :
    ReportsFirst Flawed (lines.zipIdx n) (readLines n (lines.map String.toList)) := by
  induction lines generalizing n with
  | nil => exact .nil []
  | cons line lines ih =>
    rw [List.zipIdx_cons, readLines_cons, ← List.singleton_append]
    exact (readLine_reports line n).append fun v? _ => (ih (n + 1)).map (v?.toList ++ ·)

theorem readFile_eq_readLines (text : String) :
    readFile text = readLines 1 ((Text.lines text).map String.toList) := by
  simp [readFile, Text.lines, Text.cut]

theorem readFile_reports (text : String) :
    ReportsFirst Flawed ((Text.lines text).zipIdx 1) (readFile text) := by
  rw [readFile_eq_readLines]
  exact readLines_reports (Text.lines text) 1

theorem readFile_isOk_iff (text : String) : (∃ pairs, readFile text = .ok pairs) ↔
    ∀ line ∈ Text.lines text, Readable line :=
  (readFile_reports text).isOk_iff_sound fun _ => exists_flawed_iff

/-- The error of a file is that of its first line that is not readable. -/
theorem readFile_eq_error_iff (text : String) (e : EnvironmentError) :
    readFile text = .error e ↔ ∃ before line behind, Text.lines text = before ++ line :: behind ∧
      (∀ earlier ∈ before, Readable earlier) ∧ ¬ Readable line ∧
      e = fault (before.length + 1) (Text.trim line).toList := by
  have hunique : ∀ q e e', Flawed q e → Flawed q e' → e = e' :=
    fun _ _ _ h h' => h.2.trans h'.2.symm
  rw [(readFile_reports text).eq_error_iff_numbered (fun _ => exists_flawed_iff) hunique]
  simp only [Flawed, Nat.add_comm 1]

/-- A name that can be given a value on a line, with nothing to be trimmed. -/
structure IsName (name : String) : Prop where
  ne_empty : name ≠ ""
  unpadded : Text.Unpadded name
  equals_notMem : '=' ∉ name.toList
  newline_notMem : '\n' ∉ name.toList
  no_comment : name.toList.head? ≠ some '#'

instance (name : String) : Decidable (IsName name) :=
  decidable_of_iff (name ≠ "" ∧ Text.Unpadded name ∧ '=' ∉ name.toList ∧ '\n' ∉ name.toList ∧
      name.toList.head? ≠ some '#')
    ⟨fun ⟨hne, hunpadded, hequals, hnewline, hcomment⟩ =>
        ⟨hne, hunpadded, hequals, hnewline, hcomment⟩,
      fun ⟨hne, hunpadded, hequals, hnewline, hcomment⟩ =>
        ⟨hne, hunpadded, hequals, hnewline, hcomment⟩⟩

namespace IsName

variable {name : String}

theorem toList_ne_nil (h : IsName name) : name.toList ≠ [] :=
  fun hname => h.ne_empty (String.toList_eq_nil_iff.1 hname)

theorem head?_append (h : IsName name) (cs : List Char) :
    (name.toList ++ cs).head? = name.toList.head? := by
  obtain ⟨c, rest, hname⟩ := List.exists_cons_of_ne_nil h.toList_ne_nil
  rw [hname]
  rfl

end IsName

/-- White space that does not end a line. -/
def IsSpace (c : Char) : Prop := Text.isBlank c = true ∧ c ≠ '\n'

instance (c : Char) : Decidable (IsSpace c) :=
  inferInstanceAs (Decidable (Text.isBlank c = true ∧ c ≠ '\n'))

inductive Quote where
  | single
  | double

namespace Quote

def char : Quote → Char
  | single => '\''
  | double => '"'

/-- A text between quotes. -/
def around (q : Quote) (cs : List Char) : List Char := q.char :: (cs ++ [q.char])

theorem getLast?_around (q : Quote) (cs : List Char) : (q.around cs).getLast? = some q.char := by
  rw [around, ← List.cons_append, List.getLast?_concat]

theorem isBlank_char (q : Quote) : Text.isBlank q.char = false := by cases q <;> rfl

theorem char_ne_newline (q : Quote) : q.char ≠ '\n' := by cases q <;> decide

theorem trimChars_around (q : Quote) (cs : List Char) :
    Text.trimChars (q.around cs) = q.around cs := by
  apply Text.trimChars_of_ends
  rintro c (hc | hc)
  · cases hc
    exact q.isBlank_char
  · cases (q.getLast?_around cs).symm.trans hc
    exact q.isBlank_char

theorem inside?_around (q : Quote) (cs : List Char) : inside? q.char (q.around cs) = some cs := by
  simp [inside?, around]

/-- One pair of quotes comes off, whatever stands between them. -/
theorem unquote_around (q : Quote) (cs : List Char) : unquote (q.around cs) = cs := by
  cases q with
  | double =>
    have hinside := Quote.double.inside?_around cs
    rw [char] at hinside
    rw [unquote, hinside]
    rfl
  | single =>
    have hdouble : inside? '"' (Quote.single.around cs) = none := rfl
    have hinside := Quote.single.inside?_around cs
    rw [char] at hinside
    rw [unquote, hdouble, hinside]
    rfl

end Quote

/-- A line as somebody may write it. What stands behind the quotes is white space, such as the
carriage return of a line end. -/
inductive Line where
  | pair (key value : String) (quote : Quote) (behind : List Char) (hkey : IsName key)
    (hvalue : '\n' ∉ value.toList) (hbehind : ∀ c ∈ behind, IsSpace c)
  | comment (indent remark : List Char) (hindent : ∀ c ∈ indent, IsSpace c)
    (hremark : '\n' ∉ remark)
  | blank (spaces : List Char) (hspaces : ∀ c ∈ spaces, IsSpace c)

namespace Line

def chars : Line → List Char
  | .pair key value quote behind _ _ _ =>
    key.toList ++ '=' :: quote.around value.toList ++ behind
  | .comment indent remark _ _ => indent ++ '#' :: remark
  | .blank spaces _ => spaces

def text (line : Line) : String := String.ofList line.chars

/-- The name on a line and its value. -/
def pair? : Line → Option (String × String)
  | .pair key value _ _ _ _ _ => some (key, value)
  | .comment _ _ _ _ => none
  | .blank _ _ => none

theorem newline_notMem_chars (line : Line) : '\n' ∉ line.chars := by
  have hspaces {spaces : List Char} (h : ∀ c ∈ spaces, IsSpace c) : '\n' ∉ spaces :=
    fun hmem => (h _ hmem).2 rfl
  cases line with
  | pair key value quote behind hkey hvalue hbehind =>
    simp [chars, Quote.around, hkey.newline_notMem, hvalue, quote.char_ne_newline.symm,
      hspaces hbehind]
  | comment indent remark hindent hremark => simp [chars, hspaces hindent, hremark]
  | blank spaces h => exact hspaces h

/-- A line with a name and its value is trimmed behind the quotes alone. -/
theorem trimChars_pair {key : String} (hkey : IsName key) (quote : Quote) (value : List Char)
    {behind : List Char} (hbehind : ∀ c ∈ behind, IsSpace c) :
    Text.trimChars (key.toList ++ '=' :: quote.around value ++ behind) =
      key.toList ++ '=' :: quote.around value := by
  refine Text.trimChars_append ?_ fun c hc => (hbehind c hc).1
  rintro c (hc | hc)
  · rw [hkey.head?_append] at hc
    exact hkey.unpadded c (.inl hc)
  · have hlast : (key.toList ++ '=' :: quote.around value).getLast? = some quote.char := by
      rw [List.getLast?_append, List.getLast?_cons, quote.getLast?_around]
      rfl
    cases hlast.symm.trans hc
    exact quote.isBlank_char

theorem readLine_text (n : Nat) (line : Line) :
    readLine n (Text.trim line.text).toList = .ok line.pair? := by
  rw [Text.trim, text, String.toList_ofList, String.toList_ofList]
  cases line with
  | pair key value quote behind hkey hvalue hbehind =>
    have hcomment : ∀ comment, key.toList ++ '=' :: quote.around value.toList ≠ '#' :: comment := by
      intro comment hcs
      apply hkey.no_comment
      rw [← hkey.head?_append, hcs]
      rfl
    have htrim : Text.trimChars key.toList = key.toList := Text.trimChars_of_ends hkey.unpadded
    rw [chars, trimChars_pair hkey quote _ hbehind, readLine_eq (by simp) hcomment,
      Text.cutOnce?_eq_some_iff.2 ⟨rfl, hkey.equals_notMem⟩]
    dsimp only
    rw [htrim, if_neg hkey.toList_ne_nil, quote.trimChars_around, quote.unquote_around,
      String.ofList_toList, String.ofList_toList]
    rfl
  | comment indent remark hindent hremark =>
    obtain ⟨rest, hrest⟩ := Text.exists_trimChars_eq_cons (c := '#')
      (fun c hc => (hindent c hc).1) rfl remark
    rw [chars, hrest]
    rfl
  | blank spaces h =>
    rw [chars, Text.trimChars_of_blank fun c hc => (h c hc).1]
    rfl

end Line

/-- Reading lines gives the names on them and their values in order. -/
theorem readLines_text (lines : List Line) (n : Nat) :
    readLines n ((lines.map Line.text).map String.toList) = .ok (lines.filterMap Line.pair?) := by
  induction lines generalizing n with
  | nil => rfl
  | cons line lines ih =>
    rw [List.map_cons, readLines_cons, line.readLine_text, ih, List.filterMap_cons]
    cases line.pair? <;> rfl

/-- A file with these lines. -/
def textOf (lines : List Line) : String := "\n".intercalate (lines.map Line.text)

theorem lines_textOf {lines : List Line} (h : lines ≠ []) :
    Text.lines (textOf lines) = lines.map Line.text := by
  refine Text.cut_eq_iff.2 ⟨by simpa using h, ?_, rfl⟩
  intro piece hpiece
  obtain ⟨line, -, rfl⟩ := List.mem_map.1 hpiece
  rw [Line.text, String.toList_ofList]
  exact line.newline_notMem_chars

theorem readFile_textOf (lines : List Line) :
    readFile (textOf lines) = .ok (lines.filterMap Line.pair?) := by
  cases lines with
  | nil => rfl
  | cons line lines =>
    rw [readFile_eq_readLines, lines_textOf (List.cons_ne_nil line lines)]
    exact readLines_text (line :: lines) 1

/-- A file reads exactly if each of its lines, trimmed, is empty, a comment, or has more than white
space in front of its first equals sign. Otherwise the error names the first line that is none of
these, counted from one with the blank lines and comments above it, as malformed if it has no equals
sign and for its empty key if it has one. Pairs that are written one to a line with quotes around
the values, with any blank lines and comments in between, are read back as they were, in order. -/
theorem files_read_line_by_line :
    (∀ text : String, (∃ pairs, readFile text = .ok pairs) ↔
      ∀ line ∈ Text.lines text, Sound (Text.trim line).toList) ∧
    (∀ (text : String) (e : EnvironmentError), readFile text = .error e ↔
      ∃ before line behind, Text.lines text = before ++ line :: behind ∧
        (∀ earlier ∈ before, Sound (Text.trim earlier).toList) ∧
        ¬ Sound (Text.trim line).toList ∧
        e = if '=' ∈ line.toList then .emptyKey (before.length + 1)
          else .malformedLine (before.length + 1)) ∧
    ∀ lines : List Line, readFile (textOf lines) = .ok (lines.filterMap Line.pair?) := by
  refine ⟨readFile_isOk_iff, fun text e => ?_, readFile_textOf⟩
  have hequals (line : String) : '=' ∈ (Text.trim line).toList ↔ '=' ∈ line.toList := by
    rw [Text.trim, String.toList_ofList, Text.mem_trimChars_iff rfl]
  simp only [readFile_eq_error_iff, Readable, fault, hequals]

/-- Two pairs among other lines, as they are written and as they are read. Quotes of the other kind,
equals signs and spaces stay within the quotes. -/
example :
    let hreturn : ∀ c ∈ ['\r'], IsSpace c := List.forall_mem_singleton.2 (by decide)
    let lines : List Line := [
      .comment [] " sizes".toList nofun (by decide +kernel),
      .blank ['\r'] hreturn,
      .pair "A" "\"x=1\" " .single ['\r'] (by decide +kernel) (by decide +kernel) hreturn,
      .comment ['\t'] " B=2".toList (List.forall_mem_singleton.2 (by decide)) (by decide +kernel),
      .pair "B" "'" .double [] (by decide +kernel) (by decide +kernel) nofun]
    textOf lines = "# sizes\n\r\nA='\"x=1\" '\r\n\t# B=2\nB=\"'\"" ∧
      (readFile (textOf lines)).toOption = some [("A", "\"x=1\" "), ("B", "'")] := by
  decide +kernel

end FeedQuery.Environment
