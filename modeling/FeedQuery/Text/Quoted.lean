import FeedQuery.Text.Shapeless

/-!
A text in double quotes, for showing it to a person: what has no shape is escaped.
-/
namespace FeedQuery.Text

/-- Quotes and backslashes get a backslash, tabs, line ends and zero their letter, and every other
shapeless character its code point in hexadecimal. -/
def quotedChar : Char → List Char
  | '"' => ['\\', '"']
  | '\\' => ['\\', '\\']
  | '\t' => ['\\', 't']
  | '\r' => ['\\', 'r']
  | '\n' => ['\\', 'n']
  | '\x00' => ['\\', '0']
  | c =>
    if isShapeless c then ['\\', 'u', '{'] ++ (Nat.toDigits 16 c.toNat ++ ['}'])
    else [c]

def quoted (s : String) : String :=
  String.ofList ('"' :: (s.toList.flatMap quotedChar ++ ['"']))

end FeedQuery.Text
