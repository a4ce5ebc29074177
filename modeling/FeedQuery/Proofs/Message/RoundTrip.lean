import FeedQuery.Message.Codec
import FeedQuery.Proofs.Json.Record

/-!
The line of a message is decoded as the message. The messages for which this holds are those that
any text is decoded as: their content is not nested deeper than a text may nest it.
-/
namespace FeedQuery

namespace Decoder

variable (n : Nat)

theorem string_ofJson (s : String) : Decoder.string n (.ofJson (.string s)) = .ok s := by
  rw [Draft.ofJson, Decoder.string, Draft.decode_ofString]

theorem optional_eq_some {α : Type} {item : Decoder α} {n : Nat} {d : Draft} {a : α}
    (hd : d ≠ .null) (h : item n d = .ok a) : item.optional n d = .ok (some a) := by
  rw [Decoder.optional, h]
  · rfl
  · exact hd

theorem optional_string_ofJson (s? : Option String) :
    Decoder.string.optional n (.ofJson ((s?.map Json.string).getD .null)) = .ok s? := by
  cases s? with
  | none => rfl
  | some s => exact optional_eq_some nofun (string_ofJson n s)

theorem bool_ofJson (b : Bool) : Decoder.bool n (.ofJson (.bool b)) = .ok b := rfl

theorem float_ofJson (x : Binary64) : Decoder.float n (.ofJson (.number (.float x))) = .ok x := by
  rw [Draft.ofJson, Decoder.float, Draft.decode_numeral]
  rfl

theorem word_ofJson (expected : String) (w : UInt64) :
    Decoder.word expected n (.ofJson (.number (.ofUInt64 w))) = .ok w := by
  have hnonneg : ¬ (w.toNat : Int) < 0 := by omega
  rw [Draft.ofJson, Decoder.word, bind_of_eq_ok (Draft.decode_numeral _)]
  simp only [Number.ofUInt64]
  rw [if_neg hnonneg, Int.toNat_natCast, UInt64.ofNat_toNat]
  rfl

end Decoder

namespace Flags

theorem decode_ofJson (n : Nat) (f : Flags) :
    record.decode (n + 1) (.ofJson f.toJson) = .ok f := by
  rw [toJson, Draft.ofJson, Record.decode, Draft.ofFields,
    Field.readMembers_cons rfl rfl (bind_of_eq_ok (Decoder.bool_ofJson n f.isPrivate))]
  rfl

end Flags

namespace Entry

theorem decode_ofJson {n : Nat} {e : Entry} (h : e.content.json.depth ≤ n) :
    record.decode (n + 1) (.ofJson e.toJson) = .ok e := by
  rw [toJson, Draft.ofJson, Record.decode]
  simp only [Draft.ofFields]
  rw [Field.readMembers_cons rfl rfl
      (bind_of_eq_ok (Decoder.optional_string_ofJson n e.previous?)),
    Field.readMembers_cons rfl rfl (bind_of_eq_ok (Decoder.string_ofJson n e.author)),
    Field.readMembers_cons rfl rfl (bind_of_eq_ok (Decoder.word_ofJson n "u64" e.sequence)),
    Field.readMembers_cons rfl rfl (bind_of_eq_ok (Decoder.float_ofJson n e.timestamp)),
    Field.readMembers_cons rfl rfl (bind_of_eq_ok (Decoder.value_ofJson h))]
  rfl

end Entry

namespace Message

theorem decode_ofJson {n : Nat} {m : Message} (h : m.entry.content.json.depth ≤ n) :
    record.decode (n + 2) (.ofJson m.toJson) = .ok m := by
  rcases m with ⟨key, entry, received, flags?⟩
  rw [toJson, Draft.ofJson, Record.decode]
  -- absent flags are no member at all
  cases flags? with
  | none =>
    simp only [Option.map_none, Option.toList_none, List.append_nil, Draft.ofFields]
    rw [Field.readMembers_cons rfl rfl (bind_of_eq_ok (Decoder.string_ofJson _ key)),
      Field.readMembers_cons rfl rfl (bind_of_eq_ok (Entry.decode_ofJson h)),
      Field.readMembers_cons rfl rfl (bind_of_eq_ok (Decoder.float_ofJson _ received))]
    rfl
  | some f =>
    have hflags : Flags.record.decode.optional (n + 1) (.ofJson f.toJson) = .ok (some f) :=
      Decoder.optional_eq_some nofun (Flags.decode_ofJson n f)
    simp only [Option.map_some, Option.toList_some, List.cons_append, List.nil_append,
      Draft.ofFields]
    rw [Field.readMembers_cons rfl rfl (bind_of_eq_ok (Decoder.string_ofJson _ key)),
      Field.readMembers_cons rfl rfl (bind_of_eq_ok (Entry.decode_ofJson h)),
      Field.readMembers_cons rfl rfl (bind_of_eq_ok (Decoder.float_ofJson _ received)),
      Field.readMembers_cons rfl rfl (bind_of_eq_ok hflags)]
    rfl

end Message

namespace Entry

/-- Content that is not nested too deep, where it is read already. -/
def Partial.Fits (n : Nat) (p : Partial) : Prop := ∀ v, p.content? = some v → v.json.depth ≤ n

theorem Partial.Fits.read {n : Nat} {field : Field Partial} (hfield : field ∈ record.fields)
    (d : Draft) (p p' : Partial) (hp : p.Fits n) (h : field.read n d p = .ok p') : p'.Fits n := by
  simp only [record, List.mem_cons, List.not_mem_nil, or_false] at hfield
  rcases hfield with rfl | rfl | rfl | rfl | rfl
  case inr.inr.inr.inr =>
    obtain ⟨v, hv, h⟩ := bind_eq_ok_iff.1 h
    cases h
    rintro _ ⟨⟩
    exact Decoder.depth_le_of_value hv
  all_goals
    obtain ⟨_, -, h⟩ := bind_eq_ok_iff.1 h
    cases h
    exact hp

theorem depth_le_of_decode {n : Nat} {d : Draft} {e : Entry}
    (h : record.decode (n + 1) d = .ok e) : e.content.json.depth ≤ n := by
  have hempty : record.empty.Fits n := by
    rintro v ⟨⟩
  obtain ⟨p, hp, hfinish⟩ := Record.decode_invariant hempty (fun _ => Partial.Fits.read) h
  obtain ⟨author, -, hfinish⟩ := bind_eq_ok_iff.1 hfinish
  obtain ⟨sequence, -, hfinish⟩ := bind_eq_ok_iff.1 hfinish
  obtain ⟨timestamp, -, hfinish⟩ := bind_eq_ok_iff.1 hfinish
  obtain ⟨content, hcontent, hfinish⟩ := bind_eq_ok_iff.1 hfinish
  cases hfinish
  exact hp content (Record.require_eq_ok_iff.1 hcontent)

end Entry

namespace Message

/-- A signed part whose content is not nested too deep, where it is read already. -/
def Partial.Fits (n : Nat) (p : Partial) : Prop :=
  ∀ e, p.signed? = some e → e.content.json.depth ≤ n

theorem Partial.Fits.read {n : Nat} {field : Field Partial} (hfield : field ∈ record.fields)
    (d : Draft) (p p' : Partial) (hp : p.Fits n) (h : field.read (n + 1) d p = .ok p') :
    p'.Fits n := by
  simp only [record, List.mem_cons, List.not_mem_nil, or_false] at hfield
  rcases hfield with rfl | rfl | rfl | rfl
  case inr.inl =>
    obtain ⟨e, he, h⟩ := bind_eq_ok_iff.1 h
    cases h
    rintro _ ⟨⟩
    exact Entry.depth_le_of_decode he
  all_goals
    obtain ⟨_, -, h⟩ := bind_eq_ok_iff.1 h
    cases h
    exact hp

theorem depth_le_of_decode {n : Nat} {d : Draft} {m : Message}
    (h : record.decode (n + 2) d = .ok m) : m.entry.content.json.depth ≤ n := by
  have hempty : record.empty.Fits n := by
    rintro e ⟨⟩
  obtain ⟨p, hp, hfinish⟩ := Record.decode_invariant hempty (fun _ => Partial.Fits.read) h
  obtain ⟨key, -, hfinish⟩ := bind_eq_ok_iff.1 hfinish
  obtain ⟨entry, hentry, hfinish⟩ := bind_eq_ok_iff.1 hfinish
  obtain ⟨received, -, hfinish⟩ := bind_eq_ok_iff.1 hfinish
  cases hfinish
  exact hp entry (Record.require_eq_ok_iff.1 hentry)

/-- How deep the content of a message may be nested: as deep as a text, in two records. -/
def contentNesting : Nat := Decoder.nesting - 2

theorem ofText_line_of_le {m : Message} (h : m.entry.content.json.depth ≤ contentNesting) :
    ofText m.line = .ok m := by
  rw [ofText, Decoder.run, line, Draft.ofText_compact]
  exact bind_of_eq_ok (decode_ofJson h)

theorem depth_le_of_ofText {text : String} {m : Message} (h : ofText text = .ok m) :
    m.entry.content.json.depth ≤ contentNesting := by
  obtain ⟨m', hm, h⟩ := bind_eq_ok_iff.1 h
  split at h
  · cases h
  · cases h
    exact depth_le_of_decode hm

/-- The line of a message that some text is decoded as is decoded as the message. -/
theorem ofText_line {text : String} {m : Message} (h : ofText text = .ok m) :
    ofText m.line = .ok m := ofText_line_of_le (depth_le_of_ofText h)

end Message

end FeedQuery
