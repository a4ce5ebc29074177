import FeedQuery.Filter.Compile
import FeedQuery.Settings
import FeedQuery.Stream

/-!
Requests for messages, and why one fails.
-/
namespace FeedQuery

/-- A filter, and a page size if the answer is to be collected page by page. -/
structure Query where
  filter : RawFilter
  paginate? : Option UInt64

namespace Query

def toJson (q : Query) : Json :=
  .object (("where", q.filter.toJson) ::
    (q.paginate?.map fun n => ("paginate", Json.number (.ofUInt64 n))).toList)

structure Partial where
  filter? : Option RawFilter
  paginate? : Option (Option UInt64)

def record : Record Partial Query where
  name := "struct Query"
  fields := [
    ⟨"where", (·.filter?.isSome), fun n d p => do
      return { p with filter? := some (← RawFilter.decode n d) }, false⟩,
    ⟨"paginate", (·.paginate?.isSome), fun n d p => do
      return { p with paginate? := some (← (Decoder.word "usize").optional n d) }, true⟩]
  empty := ⟨none, none⟩
  finish p := do
    let filter ← Record.require "where" p.filter?
    return ⟨filter, p.paginate?.join⟩

def ofText (text : String) : Except DecodeError Query := Decoder.run record.decode text

end Query

/-- Why a service does not answer. -/
inductive QueryError where
  | compile (e : FilterError)
  | store (e : StoreError)
  | unsupportedHost
  | pageSize (e : PageSizeError)
  | settings (e : SettingsError)
  | decode (e : DecodeError)

namespace QueryError

def text : QueryError → String
  | .compile e => "Failed to compile filter: " ++ e.text
  | .store e => "Store query failed: " ++ e.text
  | .unsupportedHost => "[engine-core v0.1.0] is only valid for hosts exposing a message store"
  | .pageSize e => e.text
  | .settings e => "Invalid configuration: " ++ e.text
  | .decode e => "Failed to decode query: " ++ e.text

end QueryError

end FeedQuery
