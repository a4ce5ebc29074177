import FeedQuery.Json.Print
import FeedQuery.Json.Record
import FeedQuery.Message

/-!
The JSON form of messages and its decoding. An absent previous link is written as null, absent
flags are left out.
-/
namespace FeedQuery

namespace Flags

def toJson (f : Flags) : Json := .object [("private", .bool f.isPrivate)]

def record : Record (Option Bool) Flags where
  name := "struct MessageMeta"
  fields := [⟨"private", Option.isSome, fun n d _ => return some (← Decoder.bool n d), true⟩]
  empty := none
  finish p := .ok ⟨p.getD false⟩

end Flags

namespace Entry

def toJson (e : Entry) : Json :=
  .object [("previous", (e.previous?.map Json.string).getD .null), ("author", .string e.author),
    ("sequence", .number (.ofUInt64 e.sequence)), ("timestamp", .number (.float e.timestamp)),
    ("content", e.content.json)]

structure Partial where
  previous? : Option (Option String)
  author? : Option String
  sequence? : Option UInt64
  timestamp? : Option Binary64
  content? : Option Value

def Partial.finish (p : Partial) : Except String Entry := do
  let author ← Record.require "author" p.author?
  let sequence ← Record.require "sequence" p.sequence?
  let timestamp ← Record.require "timestamp" p.timestamp?
  let content ← Record.require "content" p.content?
  return ⟨p.previous?.join, author, sequence, timestamp, content⟩

def record : Record Partial Entry where
  name := "struct MessageValue"
  fields := [
    ⟨"previous", (·.previous?.isSome), fun n d p => do
      return { p with previous? := some (← Decoder.string.optional n d) }, true⟩,
    ⟨"author", (·.author?.isSome), fun n d p => do
      return { p with author? := some (← Decoder.string n d) }, false⟩,
    ⟨"sequence", (·.sequence?.isSome), fun n d p => do
      return { p with sequence? := some (← Decoder.word "u64" n d) }, false⟩,
    ⟨"timestamp", (·.timestamp?.isSome), fun n d p => do
      return { p with timestamp? := some (← Decoder.float n d) }, false⟩,
    ⟨"content", (·.content?.isSome), fun n d p => do
      return { p with content? := some (← Decoder.value n d) }, false⟩]
  empty := ⟨none, none, none, none, none⟩
  finish := Partial.finish

end Entry

namespace Message

def toJson (m : Message) : Json :=
  .object ([("key", .string m.key), ("value", m.entry.toJson),
    ("timestamp", .number (.float m.received))] ++
      (m.flags?.map fun f => ("meta", f.toJson)).toList)

structure Partial where
  key? : Option String
  signed? : Option Entry
  received? : Option Binary64
  flags? : Option (Option Flags)

def Partial.finish (p : Partial) : Except String Message := do
  let key ← Record.require "key" p.key?
  let entry ← Record.require "value" p.signed?
  let received ← Record.require "timestamp" p.received?
  return ⟨key, entry, received, p.flags?.join⟩

def record : Record Partial Message where
  name := "struct Message"
  fields := [
    ⟨"key", (·.key?.isSome), fun n d p => do
      return { p with key? := some (← Decoder.string n d) }, false⟩,
    ⟨"value", (·.signed?.isSome), fun n d p => do
      return { p with signed? := some (← Entry.record.decode n d) }, false⟩,
    ⟨"timestamp", (·.received?.isSome), fun n d p => do
      return { p with received? := some (← Decoder.float n d) }, false⟩,
    ⟨"meta", (·.flags?.isSome), fun n d p => do
      return { p with flags? := some (← Flags.record.decode.optional n d) }, true⟩]
  empty := ⟨none, none, none, none⟩
  finish := Partial.finish

def ofText (text : String) : Except DecodeError Message := Decoder.run record.decode text

/-- The line of a message in a log. -/
def line (m : Message) : String := m.toJson.compact

end Message

end FeedQuery
