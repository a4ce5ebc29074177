import FeedQuery.Json.Basic
import FeedQuery.Json.Token

/-!
The text of a JSON value: compact, as its tokens without white space, or indented by two spaces.
Fields are written in the order in which they stand.
-/
namespace FeedQuery.Json

mutual

/-- The tokens of a value. -/
def tokens : Json → List Token
  | .null => [.null]
  | .bool b => [.bool b]
  | .number n => [.number n.numeral]
  | .string s => [.string (.ofString s)]
  | .array [] => [.openArray, .closeArray]
  | .array (j :: items) => .openArray :: (j.tokens ++ tokensItems items)
  | .object [] => [.openObject, .closeObject]
  | .object ((k, v) :: fields) =>
    .openObject :: .string (.ofString k) :: .colon :: (v.tokens ++ tokensFields fields)

/-- The items after the first one, with the closing bracket. -/
def tokensItems : List Json → List Token
  | [] => [.closeArray]
  | j :: items => .comma :: (j.tokens ++ tokensItems items)

def tokensFields : List (String × Json) → List Token
  | [] => [.closeObject]
  | (k, v) :: fields =>
    .comma :: .string (.ofString k) :: .colon :: (v.tokens ++ tokensFields fields)

end

def compactChars (j : Json) : List Char := j.tokens.flatMap Token.chars

def compact (j : Json) : String := String.ofList j.compactChars

/-- A new line, indented by two spaces a level. -/
def newLine (level : Nat) : List Char := '\n' :: List.replicate (2 * level) ' '

def keyChars (key : String) : List Char := (Quotation.ofString key).chars ++ [':', ' ']

mutual

/-- The indented text of a value that starts at some level. -/
def prettyChars (level : Nat) : Json → List Char
  | .array (j :: items) =>
    '[' :: (newLine (level + 1) ++ (j.prettyChars (level + 1) ++ prettyItems level items))
  | .object ((k, v) :: fields) =>
    '{' :: (newLine (level + 1) ++
      (keyChars k ++ (v.prettyChars (level + 1) ++ prettyFields level fields)))
  | .array [] => ['[', ']']
  | .object [] => ['{', '}']
  | .null => Token.null.chars
  | .bool b => (Token.bool b).chars
  | .number n => n.numeral.chars
  | .string s => (Quotation.ofString s).chars

def prettyItems (level : Nat) : List Json → List Char
  | [] => newLine level ++ [']']
  | j :: items =>
    ',' :: (newLine (level + 1) ++ (j.prettyChars (level + 1) ++ prettyItems level items))

def prettyFields (level : Nat) : List (String × Json) → List Char
  | [] => newLine level ++ ['}']
  | (k, v) :: fields =>
    ',' :: (newLine (level + 1) ++
      (keyChars k ++ (v.prettyChars (level + 1) ++ prettyFields level fields)))

end

def pretty (j : Json) : String := String.ofList (j.prettyChars 0)

end FeedQuery.Json
