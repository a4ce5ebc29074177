/-!
Cutting texts at a character, and trimming Unicode white space.
-/
namespace FeedQuery.Text

/-- The pieces between the occurrences of a character: one more than there are occurrences. -/
def cutChars (sep : Char) : List Char → List (List Char)
  | [] => [[]]
  | c :: cs =>
    if c = sep then [] :: cutChars sep cs
    else match cutChars sep cs with
      | [] => [[c]]
      | piece :: pieces => (c :: piece) :: pieces

def cut (sep : Char) (s : String) : List String := (cutChars sep s.toList).map String.ofList

/-- The lines of a text. A carriage return before a line feed stays at the end of its line, where
it is white space. -/
def lines (s : String) : List String := cut '\n' s

/-- The part before the first occurrence of a character and the part after it. -/
def cutOnce? (sep : Char) : List Char → Option (List Char × List Char)
  | [] => none
  | c :: cs =>
    if c = sep then some ([], cs)
    else (cutOnce? sep cs).map fun (before, behind) => (c :: before, behind)

/-- The Unicode property `White_Space`. -/
def isBlank (c : Char) : Bool :=
  let n := c.toNat
  (9 ≤ n && n ≤ 13) || n == 0x20 || n == 0x85 || n == 0xA0 || n == 0x1680 ||
    (0x2000 ≤ n && n ≤ 0x200A) || n == 0x2028 || n == 0x2029 || n == 0x202F || n == 0x205F ||
    n == 0x3000

def trimChars (cs : List Char) : List Char :=
  ((cs.dropWhile isBlank).reverse.dropWhile isBlank).reverse

def trim (s : String) : String := String.ofList (trimChars s.toList)

theorem cutChars_ne_nil (sep : Char) (cs : List Char) : cutChars sep cs ≠ [] := by
  cases cs with
  | nil => simp [cutChars]
  | cons c cs =>
    simp only [cutChars]
    split
    · simp
    · split <;> simp

end FeedQuery.Text
