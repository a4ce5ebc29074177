import FeedQuery.Proofs.Message.Lookup
import FeedQuery.Filter.Raw

/-!
What a filter in wire form says about a message, read off its tree: an `and` says what all its
children say, an `or` what one of them says, and a leaf what its operator says of its operand.
-/
namespace FeedQuery

/-- An object that links to a text. -/
def Json.LinksTo (j : Json) (text : String) : Prop := j.HasField "link" (.string text)

namespace Value

/-- A text operand: a string, or an object with a string as its `id`. -/
def IsText (v : Value) (s : String) : Prop := v.json = .string s ∨ v.json.HasField "id" (.string s)

/-- A numeric operand, as the binary64 number nearest to it. -/
def IsNumber (v : Value) (x : Binary64) : Prop := ∃ n, v.json = .number n ∧ n.toBinary64 = x

/-- A path operand: segments without dots whose joined text it is. -/
def IsPath (v : Value) (path : List String) : Prop :=
  path ≠ [] ∧ (∀ segment ∈ path, '.' ∉ segment.toList) ∧ v.json = .string (".".intercalate path)

end Value

namespace Message

/-- An object as content, with a given field. -/
def HasField (m : Message) (name : String) (v : Json) : Prop := m.entry.content.json.HasField name v

/-- An object as content, with a given text in a field. -/
def HasText (m : Message) (name text : String) : Prop := m.HasField name (.string text)

/-- A ciphertext as content, or a flag that the content was one. -/
def Hidden (m : Message) : Prop :=
  (∃ text, m.entry.content.json = .string text) ∨ m.flags? = some ⟨true⟩

/-- A claimed creation time, in units. -/
def time (m : Message) : Int := m.entry.timestamp.units

end Message

namespace RawFilter

/-- The operand of a leaf: its `value` unless that is null, else the only one of its `values`. -/
def IsOperand (value? : Option Value) (values? : Option (List Value)) (v : Value) : Prop :=
  (value? = some v ∧ v.json ≠ .null) ∨
    ((value? = none ∨ value? = some .null) ∧ values? = some [v])

/-- What a leaf says of its operand, read in some way. -/
def OnOperand {α : Type} (Reads : Value → α → Prop) (value? : Option Value)
    (values? : Option (List Value)) (P : α → Prop) : Prop :=
  ∃ v x, IsOperand value? values? v ∧ Reads v x ∧ P x

def OnText (value? : Option Value) (values? : Option (List Value)) (P : String → Prop) : Prop :=
  OnOperand Value.IsText value? values? P

def OnNumber (value? : Option Value) (values? : Option (List Value)) (P : Binary64 → Prop) : Prop :=
  OnOperand Value.IsNumber value? values? P

/-- What a leaf says about a message. -/
def LeafAdmits (m : Message) (operator : String) (value? : Option Value)
    (values? : Option (List Value)) : Prop :=
  match operator with
  | "type" => OnText value? values? fun s => m.HasText "type" s
  | "author" => OnText value? values? fun s => m.entry.author = s
  | "key" => OnText value? values? fun s => m.key = s
  | "channel" => OnText value? values? fun s => m.HasText "channel" s
  | "hasRoot" => OnText value? values? fun s => m.HasText "root" s
  | "hasFork" => OnText value? values? fun s => m.HasText "fork" s
  | "contact" => OnText value? values? fun s => m.HasText "type" "contact" ∧ m.HasText "contact" s
  | "about" => OnText value? values? fun s => m.HasText "type" "about" ∧ m.HasText "about" s
  | "votesFor" => OnText value? values? fun s =>
    m.HasText "type" "vote" ∧ ∃ vote, m.HasField "vote" vote ∧ vote.LinksTo s
  | "hasBranch" => OnText value? values? fun s =>
    m.HasText "branch" s ∨ ∃ items, m.HasField "branch" (.array items) ∧ .string s ∈ items
  | "mentions" => OnText value? values? fun s => ∃ items, m.HasField "mentions" (.array items) ∧
    ∃ item ∈ items, item = .string s ∨ item.LinksTo s
  | "fullMentions" => OnText value? values? fun s =>
    ∃ items, m.HasField "mentions" (.array items) ∧ ∃ item ∈ items, item.LinksTo s
  | "isRoot" => ∀ v, m.HasField "root" v → v = .null
  | "isPrivate" => m.Hidden
  | "isPublic" => ¬ m.Hidden
  | "lt" => OnNumber value? values? fun x => m.time < x.units
  | "lte" => OnNumber value? values? fun x => m.time ≤ x.units
  | "gt" => OnNumber value? values? fun x => m.time > x.units
  | "gte" => OnNumber value? values? fun x => m.time ≥ x.units
  | "slowEqual" => ∃ pathOperand v path found, values? = some [pathOperand, v] ∧
    pathOperand.IsPath path ∧ m.Finds path found ∧ found.same v.json = true
  | _ => False

mutual

/-- What a filter says about a message. A node of several shapes or of none says nothing true. -/
def Admits (m : Message) : RawFilter → Prop
  | ⟨some children, none, none, _, _⟩ => AllAdmit m children
  | ⟨none, some children, none, _, _⟩ => SomeAdmits m children
  | ⟨none, none, some operator, value?, values?⟩ => LeafAdmits m operator value? values?
  | _ => False

def AllAdmit (m : Message) : List RawFilter → Prop
  | [] => True
  | f :: fs => f.Admits m ∧ AllAdmit m fs

def SomeAdmits (m : Message) : List RawFilter → Prop
  | [] => False
  | f :: fs => f.Admits m ∨ SomeAdmits m fs

end

end RawFilter

end FeedQuery
