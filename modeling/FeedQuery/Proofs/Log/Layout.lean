import FeedQuery.Log.Text
import FeedQuery.Proofs.Message.RoundTrip
import FeedQuery.Proofs.Text.Cut
import FeedQuery.Proofs.Text.Trim

/-!
A log that is written by hand or by a program: a message a line, with blank lines anywhere, and line
ends of either kind. Reading it gives its messages in order.
-/
namespace FeedQuery

namespace Message

/-- The line of a message is an object, written between braces. -/
theorem exists_toList_line_eq (m : Message) :
    ∃ inner, m.line.toList = '{' :: (inner ++ ['}']) := by
  rw [line, Json.compact, String.toList_ofList]
  exact Json.exists_compactChars_object_eq _

theorem trim_line_append (m : Message) {spaces : List Char}
    (h : ∀ c ∈ spaces, Text.isBlank c = true) :
    Text.trim (String.ofList (m.line.toList ++ spaces)) = m.line := by
  have hends : ∀ c, m.line.toList.head? = some c ∨ m.line.toList.getLast? = some c →
      Text.isBlank c = false := by
    obtain ⟨inner, hinner⟩ := m.exists_toList_line_eq
    rw [hinner, ← List.cons_append, List.getLast?_append]
    rintro c (h | h) <;> cases h <;> rfl
  rw [Text.trim, String.toList_ofList, Text.trimChars_append hends h, String.ofList_toList]

theorem line_ne_empty (m : Message) : m.line ≠ "" := by
  obtain ⟨inner, hinner⟩ := m.exists_toList_line_eq
  intro h
  rw [h] at hinner
  cases hinner

theorem newline_notMem_line (m : Message) : '\n' ∉ m.line.toList := by
  intro h
  rw [line, Json.compact, String.toList_ofList] at h
  exact absurd (Json.le_toNat_of_mem_compactChars h) (by decide)

end Message

namespace Log

/-- A line of a log: a message, or white space alone. -/
inductive Line where
  | message (m : Message)
  | blank (spaces : List Char) (h : spaces.all (fun c => Text.isBlank c && c != '\n') = true)

namespace Line

def chars : Line → List Char
  | .message m => m.line.toList
  | .blank spaces _ => spaces

def message? : Line → Option Message
  | .message m => some m
  | .blank _ _ => none

theorem newline_notMem_chars (line : Line) : '\n' ∉ line.chars := by
  cases line with
  | message m => exact m.newline_notMem_line
  | blank spaces h =>
    intro hmem
    cases List.all_eq_true.1 h _ hmem

end Line

/-- How a line ends. -/
inductive LineEnd where
  | lf
  | crlf

/-- What stands before the line feed of a line end. -/
def LineEnd.spaces : LineEnd → List Char
  | .lf => []
  | .crlf => ['\r']

theorem LineEnd.isBlank_of_mem_spaces (e : LineEnd) : ∀ c ∈ e.spaces, Text.isBlank c = true := by
  cases e with
  | lf => exact nofun
  | crlf => exact List.forall_mem_singleton.2 rfl

/-- A log as somebody may write it: lines, and what stands behind the last line end. -/
structure Layout where
  lines : List (Line × LineEnd)
  rest : Line

namespace Layout

def charsFrom (rest : Line) : List (Line × LineEnd) → List Char
  | [] => rest.chars
  | (line, e) :: lines => line.chars ++ e.spaces ++ '\n' :: charsFrom rest lines

def messagesFrom (rest : Line) : List (Line × LineEnd) → List Message
  | [] => rest.message?.toList
  | (line, _) :: lines => line.message?.toList ++ messagesFrom rest lines

def text (l : Layout) : String := String.ofList (charsFrom l.rest l.lines)

def messages (l : Layout) : List Message := messagesFrom l.rest l.lines

end Layout

/-- One line of a log adds its message, if it has one. -/
theorem readLines_cons {line : Line}
    (hline : ∀ m ∈ line.message?.toList, Message.ofText m.line = .ok m) {spaces : List Char}
    (hspaces : ∀ c ∈ spaces, Text.isBlank c = true) (n : Nat) (lines : List String) :
    readLines n (String.ofList (line.chars ++ spaces) :: lines) =
      (readLines (n + 1) lines).map (line.message?.toList ++ ·) := by
  cases line with
  | message m =>
    rw [readLines, Line.chars, m.trim_line_append hspaces, if_neg m.line_ne_empty,
      hline m List.mem_cons_self]
    rfl
  | blank blanks h =>
    have hblank : ∀ c ∈ blanks ++ spaces, Text.isBlank c = true :=
      List.forall_mem_append.2
        ⟨fun c hc => (Bool.and_eq_true_iff.1 (List.all_eq_true.1 h c hc)).1, hspaces⟩
    have htrim : Text.trim (String.ofList (blanks ++ spaces)) = "" := by
      rw [Text.trim, String.toList_ofList, Text.trimChars_of_blank hblank]
    rw [readLines, Line.chars, if_pos htrim]
    cases readLines (n + 1) lines <;> rfl

theorem readLines_layout {rest : Line} {lines : List (Line × LineEnd)}
    (h : ∀ m ∈ Layout.messagesFrom rest lines, Message.ofText m.line = .ok m) (n : Nat) :
    readLines n ((Text.cutChars '\n' (Layout.charsFrom rest lines)).map String.ofList) =
      .ok (Layout.messagesFrom rest lines) := by
  induction lines generalizing n with
  | nil =>
    have hspaces : ∀ c ∈ [], Text.isBlank c = true := nofun
    have hread := readLines_cons h hspaces n []
    rw [List.append_nil] at hread
    rw [Layout.charsFrom, Text.cutChars_of_notMem rest.newline_notMem_chars, List.map_singleton,
      hread]
    exact congrArg Except.ok (List.append_nil _)
  | cons first lines ih =>
    obtain ⟨line, e⟩ := first
    obtain ⟨hline, hlines⟩ := List.forall_mem_append.1 h
    have hnewline : '\n' ∉ line.chars ++ e.spaces := by
      rw [List.mem_append, not_or]
      refine ⟨line.newline_notMem_chars, ?_⟩
      cases e <;> decide
    rw [Layout.charsFrom, Text.cutChars_append hnewline, List.map_cons,
      readLines_cons hline e.isBlank_of_mem_spaces, ih hlines]
    rfl

/-- Reading a log gives the messages on its lines in order. -/
theorem ofText_layout {l : Layout} (h : ∀ m ∈ l.messages, ∃ text, Message.ofText text = .ok m) :
    ofText l.text = .ok ⟨l.messages⟩ := by
  have hread : ∀ m ∈ l.messages, Message.ofText m.line = .ok m := by
    intro m hm
    obtain ⟨text, htext⟩ := h m hm
    exact Message.ofText_line htext
  rw [ofText, Text.lines, Text.cut, Layout.text, String.toList_ofList, readLines_layout hread]
  rfl

/-- Every message of a log that was read was read from a text. -/
theorem exists_text_of_readLines {n : Nat} {lines : List String} {ms : List Message}
    (h : readLines n lines = .ok ms) : ∀ m ∈ ms, ∃ text, Message.ofText text = .ok m := by
  induction lines generalizing n ms with
  | nil =>
    cases h
    exact nofun
  | cons line lines ih =>
    rw [readLines] at h
    split at h
    · exact ih h
    · obtain ⟨m, hm, h⟩ := bind_eq_ok_iff.1 h
      obtain ⟨ms, hms, h⟩ := bind_eq_ok_iff.1 h
      cases h
      exact List.forall_mem_cons.2 ⟨⟨_, mapError_eq_ok_iff.1 hm⟩, ih hms⟩

theorem exists_text_of_ofText {text : String} {l : Log} (h : ofText text = .ok l) :
    ∀ m ∈ l.messages, ∃ text, Message.ofText text = .ok m := by
  obtain ⟨ms, hms, rfl⟩ := map_eq_ok_iff.1 h
  exact exists_text_of_readLines hms

end Log

end FeedQuery
