import FeedQuery.Filter.Operator
import FeedQuery.Json.Variant

/-!
The JSON form of operators: their names.
-/
namespace FeedQuery.Operator

def toJson (op : Operator) : Json := .string op.name

def decode : Decoder Operator := .variant (all.map fun op => (op.name, Decoder.unitCase op))

def ofText (text : String) : Except DecodeError Operator := Decoder.run decode text

end FeedQuery.Operator
