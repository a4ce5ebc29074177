import FeedQuery.Json.Basic

/-!
Messages: signed entries of append-only feeds, as a log stores them, and what can be asked of one.
-/
namespace FeedQuery

/-- The signed part of a message. -/
structure Entry where
  previous? : Option String
  author : String
  sequence : UInt64
  /-- The creation time that the author claims, in milliseconds. -/
  timestamp : Binary64
  /-- An object in a public message, a ciphertext string in an encrypted one. -/
  content : Value

/-- What the log knows about a message besides its entry. -/
structure Flags where
  isPrivate : Bool
  deriving DecidableEq, Repr

/-- A message as a log stores it. Its two times are finite because messages come from JSON, which
has no other numbers; the bounds that times are compared with are `Extended`. -/
structure Message where
  key : String
  entry : Entry
  /-- The time of receipt, in milliseconds. -/
  received : Binary64
  flags? : Option Flags

namespace Message

def author (m : Message) : String := m.entry.author

/-- A field of the content, which only an object has. -/
def field? (m : Message) (name : String) : Option Json := m.entry.content.json.get? name

/-- The text in a field of the content. -/
def fieldText? (m : Message) (name : String) : Option String :=
  (m.field? name).bind Json.text?

def type? (m : Message) : Option String := m.fieldText? "type"

/-- Encrypted content, or content that was decrypted for us. -/
def isPrivate (m : Message) : Bool :=
  m.entry.content.json.isString || (m.flags?.any Flags.isPrivate)

/-- What stands under the name of a field of the signed part. -/
def entryField? (m : Message) : String → Option Json
  | "author" => some (.string m.entry.author)
  | "previous" => some ((m.entry.previous?.map Json.string).getD .null)
  | "sequence" => some (.number (.ofUInt64 m.entry.sequence))
  | "timestamp" => some (.number (.float m.entry.timestamp))
  | "content" => some m.entry.content.json
  | _ => none

/-- Follows a path into the message: to its key, to its time of receipt, or to a field of its
signed part and on through objects. -/
def lookup? (m : Message) : List String → Option Json
  | ["key"] => some (.string m.key)
  | ["timestamp"] => some (.number (.float m.received))
  | "value" :: name :: path => (m.entryField? name).bind (Json.walk? path)
  | _ => none

end Message

end FeedQuery
