import FeedQuery.Number.Shortest
import FeedQuery.Text.Quoted

/-!
Why a text does not decode: it is not JSON, it is cut off, or it is JSON of another shape.
-/
namespace FeedQuery

/-- What stands in a text where something else is expected. -/
inductive Shape where
  | null
  | boolean (b : Bool)
  | number (n : Number)
  | text (s : String)
  | sequence
  | map
  | unitVariant

/-- How a well-formed value fails to have the expected shape. -/
inductive Mismatch where
  | missingField (name : String)
  | duplicateField (name : String)
  | wrongType (actual : Shape) (expected : String)
  | wrongValue (actual : Int) (expected : String)
  | wrongLength (length : Nat) (expected : String)
  | unknownVariant (name : String) (known : List String)

inductive DecodeError where
  | malformed
  | tooDeep
  | numberTooLarge
  | cutOff
  | mismatch (m : Mismatch)

/-- The three kinds of decoding failures. -/
inductive DecodeError.Category where
  | syntactic
  | endOfText
  | data
  deriving DecidableEq, Repr

def DecodeError.category : DecodeError → Category
  | .malformed | .tooDeep | .numberTooLarge => .syntactic
  | .cutOff => .endOfText
  | .mismatch _ => .data

def Number.text (n : Number) : String := String.ofList n.numeral.chars

namespace Shape

def describe : Shape → String
  | .null => "null"
  | .boolean true => "boolean `true`"
  | .boolean false => "boolean `false`"
  | .number (.integer i h) => "integer `" ++ (Number.integer i h).text ++ "`"
  | .number (.float x) => "floating point `" ++ (Number.float x).text ++ "`"
  | .text s => "string " ++ Text.quoted s
  | .sequence => "sequence"
  | .map => "map"
  | .unitVariant => "unit variant"

end Shape

namespace Mismatch

/-- The known names of a variant as an enumeration. -/
def enumerate : List String → String
  | [a, b] => "`" ++ a ++ "` or `" ++ b ++ "`"
  | names => "one of " ++ ", ".intercalate (names.map fun name => "`" ++ name ++ "`")

def text : Mismatch → String
  | .missingField name => "missing field `" ++ name ++ "`"
  | .duplicateField name => "duplicate field `" ++ name ++ "`"
  | .wrongType actual expected => "invalid type: " ++ actual.describe ++ ", expected " ++ expected
  | .wrongValue actual expected =>
    "invalid value: integer `" ++ toString actual ++ "`, expected " ++ expected
  | .wrongLength length expected =>
    "invalid length " ++ toString length ++ ", expected " ++ expected
  | .unknownVariant name known =>
    "unknown variant `" ++ name ++ "`, expected " ++ enumerate known

end Mismatch

namespace DecodeError

def text : DecodeError → String
  | .malformed => "malformed JSON"
  | .tooDeep => "JSON nested too deep"
  | .numberTooLarge => "number out of range"
  | .cutOff => "unexpected end of JSON"
  | .mismatch m => m.text

end DecodeError

end FeedQuery
