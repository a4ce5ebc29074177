import FeedQuery.Log.Text
import FeedQuery.Proofs.FirstFault
import FeedQuery.Proofs.Text.Cut

/-!
Logs as texts, line by line: a text is a log if each of its lines is, and the first one that is not
is the error. Texts put together are read one after the other, and only the lines of the second one
are counted further down.
-/
namespace FeedQuery

/-- An error of a line, when there are more lines above. -/
def StoreError.below (above : Nat) : StoreError → StoreError
  | .decode line e => .decode (line + above) e
  | e => e

namespace Log

/-- A line that a log may have: blank, or a message between white space. -/
def Readable (line : String) : Prop :=
  Text.trim line = "" ∨ ∃ m, Message.ofText (Text.trim line) = .ok m

/-- Why a line with its number is no line of a log. -/
def Unreadable (q : String × Nat) (e : StoreError) : Prop :=
  Text.trim q.1 ≠ "" ∧ ∃ d, Message.ofText (Text.trim q.1) = .error d ∧ e = .decode q.2 d

theorem exists_unreadable_iff {q : String × Nat} : (∃ e, Unreadable q e) ↔ ¬ Readable q.1 := by
  cases hm : Message.ofText (Text.trim q.1) <;> simp [Unreadable, Readable, hm]

theorem readLines_cons_blank {line : String} (h : Text.trim line = "") (n : Nat)
    (lines : List String) : readLines n (line :: lines) = readLines (n + 1) lines := by
  rw [readLines, if_pos h]

theorem readLines_cons_message {line : String} (h : Text.trim line ≠ "") (n : Nat)
    (lines : List String) : readLines n (line :: lines) =
      (Message.ofText (Text.trim line)).mapError (.decode n) >>= fun m =>
        (readLines (n + 1) lines).map (m :: ·) := by
  rw [readLines, if_neg h]
  rfl

/-- Reading stops at the first line that is no line of a log. -/
theorem readLines_reports (lines : List String) (n : Nat) :
    ReportsFirst Unreadable (lines.zipIdx n) (readLines n lines) := by
  induction lines generalizing n with
  | nil => exact .nil []
  | cons line lines ih =>
    rw [List.zipIdx_cons]
    by_cases hblank : Text.trim line = ""
    · rw [readLines_cons_blank hblank]
      exact .cons (fun _ he => he.1 hblank) (ih (n + 1))
    · rw [readLines_cons_message hblank]
      cases hm : Message.ofText (Text.trim line) with
      | error d => exact .here ⟨hblank, d, hm, rfl⟩
      | ok m =>
        have hread : ∀ e, ¬ Unreadable (line, n) e := by
          rintro e ⟨-, d, hd, -⟩
          cases hm.symm.trans hd
        exact .cons hread ((ih (n + 1)).map (m :: ·))

/-- Lines are read one after the other. -/
theorem readLines_append (xs ys : List String) (n : Nat) :
    readLines n (xs ++ ys) =
      readLines n xs >>= fun ms => (readLines (n + xs.length) ys).map (ms ++ ·) := by
  induction xs generalizing n with
  | nil =>
    show readLines n ys = (readLines n ys).map id
    cases readLines n ys <;> rfl
  | cons line xs ih =>
    have hlength : n + (line :: xs).length = n + 1 + xs.length := by
      simp only [List.length_cons]
      omega
    rw [List.cons_append, hlength]
    by_cases hblank : Text.trim line = ""
    · rw [readLines_cons_blank hblank, readLines_cons_blank hblank, ih]
    · rw [readLines_cons_message hblank, readLines_cons_message hblank, ih]
      cases Message.ofText (Text.trim line) with
      | error d => rfl
      | ok m =>
        show Except.map (m :: ·) (readLines (n + 1) xs >>= _) =
          (readLines (n + 1) xs).map (m :: ·) >>= _
        cases readLines (n + 1) xs with
        | error e => rfl
        | ok ms =>
          show Except.map (m :: ·) (Except.map (ms ++ ·) _) = Except.map (m :: ms ++ ·) _
          cases readLines (n + 1 + xs.length) ys <;> rfl

/-- Where lines stand counts for nothing but the number in the error. -/
theorem readLines_add (lines : List String) (n above : Nat) :
    readLines (n + above) lines = (readLines n lines).mapError (.below above) := by
  induction lines generalizing n with
  | nil => rfl
  | cons line lines ih =>
    by_cases hblank : Text.trim line = ""
    · rw [readLines_cons_blank hblank, readLines_cons_blank hblank, Nat.add_right_comm, ih]
    · rw [readLines_cons_message hblank, readLines_cons_message hblank, Nat.add_right_comm, ih]
      cases Message.ofText (Text.trim line) with
      | error d => rfl
      | ok m =>
        show Except.map (m :: ·) ((readLines (n + 1) lines).mapError _) =
          ((readLines (n + 1) lines).map (m :: ·)).mapError _
        cases readLines (n + 1) lines <;> rfl

theorem lines_append_newline (a b : String) :
    Text.lines (a ++ "\n" ++ b) = Text.lines a ++ Text.lines b := by
  have htoList : (a ++ "\n" ++ b).toList = a.toList ++ '\n' :: b.toList := by simp
  simp only [Text.lines, Text.cut]
  rw [htoList, Text.cutChars_append_cons, List.map_append]

theorem length_lines (s : String) : (Text.lines s).length = s.toList.count '\n' + 1 := by
  simp [Text.lines, Text.cut, Text.length_cutChars]

/-- Texts on both sides of a line feed are read one after the other. -/
theorem ofText_append_newline (a b : String) : ofText (a ++ "\n" ++ b) =
    ofText a >>= fun l => ((ofText b).mapError (.below (1 + a.toList.count '\n'))).map
      fun l' => ⟨l.messages ++ l'.messages⟩ := by
  simp only [ofText]
  rw [lines_append_newline, readLines_append, length_lines, Nat.add_comm (a.toList.count '\n'),
    readLines_add]
  cases readLines 1 (Text.lines a) with
  | error e => rfl
  | ok ms =>
    show Except.map mk (Except.map (ms ++ ·) _) = Except.map _ _
    cases readLines 1 (Text.lines b) <;> rfl

theorem ofText_reports (text : String) :
    ReportsFirst Unreadable ((Text.lines text).zipIdx 1) (ofText text) :=
  (readLines_reports (Text.lines text) 1).map mk

/-- A text is a log exactly if each of its lines is readable. -/
theorem ofText_isOk_iff (text : String) :
    (∃ l, ofText text = .ok l) ↔ ∀ line ∈ Text.lines text, Readable line :=
  (ofText_reports text).isOk_iff_sound fun _ => exists_unreadable_iff

/-- The error of a text that is no log is that of its first line that is not readable. -/
theorem ofText_eq_error_iff (text : String) (e : StoreError) : ofText text = .error e ↔
    ∃ before line behind d, Text.lines text = before ++ line :: behind ∧
      (∀ earlier ∈ before, Readable earlier) ∧ Text.trim line ≠ "" ∧
      Message.ofText (Text.trim line) = .error d ∧ e = .decode (before.length + 1) d := by
  have hunique : ∀ q e e', Unreadable q e → Unreadable q e' → e = e' := by
    rintro q e e' ⟨-, d, hd, rfl⟩ ⟨-, d', hd', rfl⟩
    cases hd.symm.trans hd'
    rfl
  rw [(ofText_reports text).eq_error_iff_numbered (fun _ => exists_unreadable_iff) hunique]
  constructor
  · rintro ⟨before, line, behind, hlines, hbefore, hblank, d, hd, rfl⟩
    exact ⟨before, line, behind, d, hlines, hbefore, hblank, hd, by rw [Nat.add_comm]⟩
  · rintro ⟨before, line, behind, d, hlines, hbefore, hblank, hd, rfl⟩
    exact ⟨before, line, behind, hlines, hbefore, hblank, d, hd, by rw [Nat.add_comm]⟩

/-- Two texts with a line feed between them are read as the first one and then the second one: the
error is that of the first, or else that of the second with its line counted on from the first, and
the log is that of both. A text is a log exactly if each of its lines, trimmed, is empty or a
message, and otherwise the error names the first line that is neither, counted from one with the
blank lines. -/
theorem texts_read_line_by_line :
    (∀ a b : String, ofText (a ++ "\n" ++ b) = match ofText a with
      | .error e => .error e
      | .ok l => match ofText b with
        | .error (.decode line d) => .error (.decode (line + 1 + a.toList.count '\n') d)
        | .error e => .error e
        | .ok l' => .ok ⟨l.messages ++ l'.messages⟩) ∧
    (∀ text : String, (∃ l, ofText text = .ok l) ↔
      ∀ line ∈ Text.lines text, Text.trim line = "" ∨
        ∃ m, Message.ofText (Text.trim line) = .ok m) ∧
    ∀ (text : String) (e : StoreError), ofText text = .error e ↔
      ∃ before line behind d, Text.lines text = before ++ line :: behind ∧
        (∀ earlier ∈ before, Text.trim earlier = "" ∨
          ∃ m, Message.ofText (Text.trim earlier) = .ok m) ∧
        Text.trim line ≠ "" ∧ Message.ofText (Text.trim line) = .error d ∧
        e = .decode (before.length + 1) d := by
  refine ⟨fun a b => ?_, ofText_isOk_iff, ofText_eq_error_iff⟩
  rw [ofText_append_newline]
  cases ofText a with
  | error e => rfl
  | ok l =>
    cases ofText b with
    | ok l' => rfl
    | error e =>
      cases e with
      | decode line d =>
        show Except.error (StoreError.decode (line + (1 + _)) d) = _
        rw [← Nat.add_assoc]
      | _ => rfl

end Log

end FeedQuery
