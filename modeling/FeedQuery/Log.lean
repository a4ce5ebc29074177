import FeedQuery.Paging
import FeedQuery.Predicate

/-!
Append-only message logs: appending, querying, and fetching one page of matches.
-/
namespace FeedQuery

/-- Failures of a store. -/
inductive StoreError where
  | query (message : String)
  | fetch (cursor : Cursor) (message : String)
  | invalidCursor (message : String)
  | io (message : String)
  | decode (line : Nat) (e : DecodeError)

namespace StoreError

def text : StoreError → String
  | .query message => "Query failed: " ++ message
  | .fetch cursor message => "Fetch failed at cursor " ++ cursor.text ++ ": " ++ message
  | .invalidCursor message => "Invalid cursor for message log: " ++ message
  | .io message => "I/O error: " ++ message
  | .decode line e => "Failed to decode log entry on line " ++ toString line ++ ": " ++ e.text

end StoreError

/-- An append-only log. Scan order is append order. -/
structure Log where
  messages : List Message

namespace Log

def empty : Log := ⟨[]⟩

def length (l : Log) : Nat := l.messages.length

/-- Appends a message; its offset is the length before. -/
def append (l : Log) (m : Message) : Log := ⟨l.messages ++ [m]⟩

@[simp] theorem messages_append (l : Log) (m : Message) :
    (l.append m).messages = l.messages ++ [m] := rfl

/-- All messages that satisfy a predicate, in log order. -/
def query (l : Log) (p : Predicate) : List Message := l.messages.filter fun m => p.holds m

/-- The first matches in a list, up to a number of them, and how many messages were looked at: all
up to the last match taken, or the whole list when there are fewer. -/
def scan (p : Predicate) : Nat → List Message → List Message × Nat
  | 0, _ => ([], 0)
  | _ + 1, [] => ([], 0)
  | n + 1, m :: ms =>
    if p.holds m then
      let (rows, seen) := scan p n ms
      (m :: rows, seen + 1)
    else
      let (rows, seen) := scan p (n + 1) ms
      (rows, seen + 1)

def pastEndText (position length : Nat) : String :=
  "Cursor offset " ++ toString position ++ " is past the end of the log (" ++ toString length ++ ")"

/-- One page of matches from a cursor on. -/
def fetch (l : Log) (p : Predicate) (size : PageSize) (cursor : Cursor) : Except StoreError Page :=
  if l.length < cursor.position then
    .error (.invalidCursor (pastEndText cursor.position l.length))
  else
    let (rows, seen) := scan p size.val (l.messages.drop cursor.position)
    let position := cursor.position + seen
    if l.length ≤ position then .ok ⟨rows, none, true⟩
    else .ok ⟨rows, some (.offset position), false⟩

theorem scan_seen_pos (p : Predicate) {n : Nat} {ms : List Message} (hn : 0 < n) (hm : ms ≠ []) :
    0 < (scan p n ms).2 := by
  obtain ⟨k, rfl⟩ : ∃ k, n = k + 1 := ⟨n - 1, by omega⟩
  cases ms with
  | nil => exact absurd rfl hm
  | cons m ms =>
    simp only [scan]
    split <;> simp

variable {l : Log} {p : Predicate} {size : PageSize} {cursor : Cursor} {page : Page}

/-- All that a fetch answers with a page: it holds the rows of a scan from the cursor on, and either
the scan has come to the end of the log or it goes on where the scan stopped. -/
theorem fetch_eq_ok_iff : l.fetch p size cursor = .ok page ↔ cursor.position ≤ l.length ∧
    let found := scan p size.val (l.messages.drop cursor.position)
    (l.length ≤ cursor.position + found.2 ∧ page = ⟨found.1, none, true⟩ ∨
      cursor.position + found.2 < l.length ∧
        page = ⟨found.1, some (.offset (cursor.position + found.2)), false⟩) := by
  unfold fetch
  by_cases hpast : l.length < cursor.position
  · simp [hpast, Nat.not_le.2 hpast]
  · rw [if_neg hpast]
    dsimp only
    split
    · rename_i hend
      simp [Nat.not_lt.1 hpast, hend, Nat.not_lt.2 hend, eq_comm]
    · rename_i hend
      simp [Nat.not_lt.1 hpast, hend, Nat.not_le.1 hend, eq_comm]

/-- A page that is not the last one moves the cursor on and leaves it inside the log. -/
theorem next_of_fetch (h : l.fetch p size cursor = .ok page) (hl : page.isLast = false) :
    ∃ n, page.next? = some (.offset n) ∧ cursor.position < n ∧ n < l.length := by
  obtain ⟨hle, ⟨-, rfl⟩ | ⟨hlt, rfl⟩⟩ := fetch_eq_ok_iff.1 h
  · simp [Page.isLast] at hl
  · refine ⟨_, rfl, ?_, hlt⟩
    have hdrop : l.messages.drop cursor.position ≠ [] := by
      intro hnil
      have := List.drop_eq_nil_iff.1 hnil
      simp only [length, hnil] at hlt hle
      omega
    have := scan_seen_pos p size.pos hdrop
    omega

end Log

end FeedQuery
