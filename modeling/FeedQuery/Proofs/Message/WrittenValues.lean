import FeedQuery.Filter.Compile
import FeedQuery.Predicate
import FeedQuery.Proofs.Filter.Refusal
import FeedQuery.Proofs.Json.Same
import FeedQuery.Proofs.Json.Written
import FeedQuery.Proofs.Message.RoundTrip

/-!
Searching for a value as it is written in the line of a message. A field that the message keeps is
found under what its line has there, with one exception: times are kept as floats, and an integer
is equal to no float.
-/
namespace FeedQuery

/-- An integer of one word: a number that is written without fraction and exponent. -/
def Json.IsInteger (j : Json) : Prop := ∃ i word, j = .number (.integer i word)

namespace Decoder

variable {n : Nat} {d : Draft}

theorem json_of_string {s : String} (h : Decoder.string n d = .ok s) (k : Nat) :
    d.json k = .ok (.string s) := by
  cases d with
  | string q =>
    have hq : q.decode = .ok s := h
    rw [Draft.json, hq]
    rfl
  | _ => exact absurd h (Draft.reject_ne_ok _ _ s)

theorem json_of_optional_string {s? : Option String} (h : Decoder.string.optional n d = .ok s?)
    (k : Nat) : d.json k = .ok ((s?.map Json.string).getD .null) := by
  unfold Decoder.optional at h
  split at h
  · cases h
    rw [Draft.json]
    rfl
  · obtain ⟨s, hs, rfl⟩ := map_eq_ok_iff.1 h
    exact json_of_string hs k

theorem json_of_float {x : Binary64} (h : Decoder.float n d = .ok x) (k : Nat) :
    ∃ number : Number, d.json k = .ok (.number number) ∧ number.toBinary64 = x := by
  cases d with
  | number numeral =>
    obtain ⟨number, hnumber, rfl⟩ := map_eq_ok_iff.1 h
    refine ⟨number, ?_, rfl⟩
    rw [Draft.json, hnumber]
    rfl
  | _ => exact absurd h (Draft.reject_ne_ok _ _ x)

/-- A word is no more than the integer that is written. -/
theorem json_of_word {expected : String} {w : UInt64} (h : Decoder.word expected n d = .ok w)
    (k : Nat) : d.json k = .ok (.number (.ofUInt64 w)) := by
  cases d with
  | number numeral =>
    obtain ⟨number, hnumber, h⟩ := bind_eq_ok_iff.1 h
    cases number with
    | integer i hi =>
      dsimp only at h
      split at h
      · cases h
      · cases h
        have hword : ((UInt64.ofNat i.toNat).toNat : Int) = i := by
          rw [UInt64.toNat_ofNat']
          omega
        rw [Draft.json, hnumber]
        simp only [Number.ofUInt64, hword]
        rfl
    | float x => exact absurd h (Draft.reject_ne_ok _ _ w)
  | _ => exact absurd h (Draft.reject_ne_ok _ _ w)

end Decoder

namespace Entry

/-- What an entry has of the last members of the object that it is read from. -/
structure Written (n : Nat) (members : List (Quotation × Draft)) (e : Entry) : Prop where
  previous : ∀ d, Draft.LastMember members "previous" d →
    Decoder.string.optional n d = .ok e.previous?
  author : ∀ d, Draft.LastMember members "author" d → Decoder.string n d = .ok e.author
  sequence : ∀ d, Draft.LastMember members "sequence" d → Decoder.word "u64" n d = .ok e.sequence
  timestamp : ∀ d, Draft.LastMember members "timestamp" d → Decoder.float n d = .ok e.timestamp
  content : ∀ d, Draft.LastMember members "content" d → Decoder.value n d = .ok e.content

theorem written_of_decode {n : Nat} {members : List (Quotation × Draft)} {flaw? : Option Flaw}
    {e : Entry} (h : record.decode (n + 1) (.object members flaw?) = .ok e) :
    e.Written n members := by
  obtain ⟨p, hp, h⟩ := bind_eq_ok_iff.1 h
  obtain ⟨author, hauthor, h⟩ := bind_eq_ok_iff.1 (mapError_eq_ok_iff.1 h)
  obtain ⟨sequence, hsequence, h⟩ := bind_eq_ok_iff.1 h
  obtain ⟨timestamp, htimestamp, h⟩ := bind_eq_ok_iff.1 h
  obtain ⟨content, hcontent, h⟩ := bind_eq_ok_iff.1 h
  cases h
  rw [Record.require_eq_ok_iff] at hauthor hsequence htimestamp hcontent
  have hapartPrevious : Field.Apart Partial.previous? record.fields :=
    .own (.other (.other (.other (.other .nil))))
  have hapartAuthor : Field.Apart Partial.author? record.fields :=
    .other (.own (.other (.other (.other .nil))))
  have hapartSequence : Field.Apart Partial.sequence? record.fields :=
    .other (.other (.own (.other (.other .nil))))
  have hapartTimestamp : Field.Apart Partial.timestamp? record.fields :=
    .other (.other (.other (.own (.other .nil))))
  have hapartContent : Field.Apart Partial.content? record.fields :=
    .other (.other (.other (.other (.own .nil))))
  constructor <;> intro d hd
  case previous =>
    obtain ⟨s?, hs, hget⟩ := Field.get_of_lastMember rfl Field.sets_of_set hapartPrevious hd hp
    rw [hget]
    exact hs
  case author => exact Field.item_of_lastMember rfl Field.sets_of_set hapartAuthor hd hp hauthor
  case sequence =>
    exact Field.item_of_lastMember rfl Field.sets_of_set hapartSequence hd hp hsequence
  case timestamp =>
    exact Field.item_of_lastMember rfl Field.sets_of_set hapartTimestamp hd hp htimestamp
  case content =>
    exact Field.item_of_lastMember rfl Field.sets_of_set hapartContent hd hp hcontent

end Entry

namespace Message

/-- What a message has of the last members of the object that it is read from. -/
structure Written (n : Nat) (members : List (Quotation × Draft)) (m : Message) : Prop where
  key : ∀ d, Draft.LastMember members "key" d → Decoder.string n d = .ok m.key
  entry : ∀ d, Draft.LastMember members "value" d → Entry.record.decode n d = .ok m.entry
  received : ∀ d, Draft.LastMember members "timestamp" d → Decoder.float n d = .ok m.received

theorem written_of_decode {n : Nat} {members : List (Quotation × Draft)} {flaw? : Option Flaw}
    {m : Message} (h : record.decode (n + 1) (.object members flaw?) = .ok m) :
    m.Written n members := by
  obtain ⟨p, hp, h⟩ := bind_eq_ok_iff.1 h
  obtain ⟨key, hkey, h⟩ := bind_eq_ok_iff.1 (mapError_eq_ok_iff.1 h)
  obtain ⟨entry, hentry, h⟩ := bind_eq_ok_iff.1 h
  obtain ⟨received, hreceived, h⟩ := bind_eq_ok_iff.1 h
  cases h
  rw [Record.require_eq_ok_iff] at hkey hentry hreceived
  have hapartKey : Field.Apart Partial.key? record.fields := .own (.other (.other (.other .nil)))
  have hapartEntry : Field.Apart Partial.signed? record.fields :=
    .other (.own (.other (.other .nil)))
  have hapartReceived : Field.Apart Partial.received? record.fields :=
    .other (.other (.own (.other .nil)))
  constructor <;> intro d hd
  case key => exact Field.item_of_lastMember rfl Field.sets_of_set hapartKey hd hp hkey
  case entry => exact Field.item_of_lastMember rfl Field.sets_of_set hapartEntry hd hp hentry
  case received =>
    exact Field.item_of_lastMember rfl Field.sets_of_set hapartReceived hd hp hreceived

/-- The paths to what a message keeps of its line. No key on them has a dot. -/
inductive Kept : List String → Prop where
  | key : Kept ["key"]
  | received : Kept ["timestamp"]
  | signed {name : String} (h : name ∈ ["previous", "author", "sequence", "timestamp"]) :
      Kept ["value", name]
  | content {path : List String} (h : ∀ key ∈ path, '.' ∉ key.toList) :
      Kept ("value" :: "content" :: path)

/-- The paths to the two times of a message. -/
def timePaths : List (List String) := [["timestamp"], ["value", "timestamp"]]

/-- What a message finds at a path where a value is written. A time is found as a float. -/
def found (path : List String) : Json → Json
  | .number x => if path ∈ timePaths then .number (.float x.toBinary64) else .number x
  | j => j

variable {m : Message} {d w : Draft} {path : List String} {n : Nat}

theorem found_of_not_time (h : path ∉ timePaths) (j : Json) : found path j = j := by
  cases j <;> simp [found, h]

theorem found_time (h : path ∈ timePaths) (x : Number) :
    found path (Json.number x).sorted = .number (.float x.toBinary64) := if_pos h

theorem exists_member_of_writes {name : String} (hm : record.decode (n + 1) d = .ok m)
    (hw : d.Writes (name :: path) w) :
    ∃ members d', m.Written n members ∧ Draft.LastMember members name d' ∧ d'.Writes path w := by
  cases hw with
  | field hlast hw => exact ⟨_, _, written_of_decode hm, hlast, hw⟩

theorem exists_entryMember_of_writes {name : String} (hm : record.decode (n + 2) d = .ok m)
    (hw : d.Writes ("value" :: name :: path) w) : ∃ members d',
      m.entry.Written n members ∧ Draft.LastMember members name d' ∧ d'.Writes path w := by
  obtain ⟨members, d', hwritten, hlast, hw⟩ := exists_member_of_writes hm hw
  have hentry := hwritten.entry d' hlast
  cases hw with
  | field hlast hw => exact ⟨_, _, Entry.written_of_decode hentry, hlast, hw⟩

theorem lookup?_of_writes (hpath : Kept path) (hm : record.decode (n + 2) d = .ok m)
    (hw : d.Writes path w) :
    ∃ j, w.json n = .ok j ∧ m.lookup? path = some (found path j.sorted) := by
  cases hpath with
  | key =>
    obtain ⟨members, d', hwritten, hlast, hw⟩ := exists_member_of_writes hm hw
    cases hw
    exact ⟨_, Decoder.json_of_string (hwritten.key w hlast) n, rfl⟩
  | received =>
    obtain ⟨members, d', hwritten, hlast, hw⟩ := exists_member_of_writes hm hw
    cases hw
    obtain ⟨x, hx, hreceived⟩ := Decoder.json_of_float (hwritten.received w hlast) n
    refine ⟨_, hx, ?_⟩
    rw [found_time (by decide), hreceived]
    rfl
  | signed hname =>
    obtain ⟨members, d', hwritten, hlast, hw⟩ := exists_entryMember_of_writes hm hw
    cases hw
    simp only [List.mem_cons, List.not_mem_nil, or_false] at hname
    rcases hname with rfl | rfl | rfl | rfl
    · refine ⟨_, Decoder.json_of_optional_string (hwritten.previous w hlast) n, ?_⟩
      rw [found_of_not_time (by decide)]
      cases hprevious : m.entry.previous? <;> simp [lookup?, entryField?, hprevious, Json.sorted]
    · exact ⟨_, Decoder.json_of_string (hwritten.author w hlast) n, rfl⟩
    · refine ⟨_, Decoder.json_of_word (hwritten.sequence w hlast) n, ?_⟩
      rw [found_of_not_time (by decide)]
      rfl
    · obtain ⟨x, hx, htimestamp⟩ := Decoder.json_of_float (hwritten.timestamp w hlast) n
      refine ⟨_, hx, ?_⟩
      rw [found_time (by decide), htimestamp]
      rfl
  | @content path hdots =>
    obtain ⟨members, d', hwritten, hlast, hw⟩ := exists_entryMember_of_writes hm hw
    obtain ⟨j, hj, hcontent⟩ := map_eq_ok_iff.1 (hwritten.content d' hlast)
    obtain ⟨k, hk, hwalk⟩ := hw.walk?_sorted hj
    refine ⟨k, hk, ?_⟩
    rw [found_of_not_time (by simp [timePaths]), ← hwalk]
    show some m.entry.content.json >>= Json.walk? path = _
    rw [← hcontent]
    rfl

/-- Only an integer that is written for a time differs from what is found. -/
theorem same_found (path : List String) (j : Json) :
    (found path j).same j = true ↔ ¬ (path ∈ timePaths ∧ j.IsInteger) := by
  by_cases hpath : path ∈ timePaths
  · cases j with
    | number x =>
      rw [found, if_pos hpath]
      cases x with
      | integer i word => simpa [hpath, Json.IsInteger, Json.same, Number.same] using word
      | float x =>
        have hsame : (Number.float x).same (.float x) = true := Number.same_refl _
        simp [Json.IsInteger, Json.same, Number.toBinary64, hsame]
    | _ => simp [found, Json.IsInteger, Json.same_refl]
  · rw [found_of_not_time hpath]
    simp [hpath, Json.same_refl]

/-- The path as one text is taken for the path. -/
theorem Kept.path?_intercalate (h : Kept path) :
    (Value.string (".".intercalate path)).path? = .ok path := by
  have hcut : Text.cut '.' (".".intercalate path) = path := by
    refine Text.cut_eq_iff.2 ⟨?_, ?_, rfl⟩
    · cases h <;> simp
    · cases h with
      | content h => simpa using h
      | signed h =>
        simp only [List.mem_cons, List.not_mem_nil, or_false] at h
        rcases h with rfl | rfl | rfl | rfl <;> decide
      | _ => decide
  have hne : ".".intercalate path ≠ "" := by
    intro hempty
    rw [hempty] at hcut
    have hpath : [""] = path := hcut
    cases h <;> simp at hpath
  rw [Value.path?]
  simp [hne, hcut]

theorem Kept.compile_slowEqual (h : Kept path) (v : Value) :
    (Filter.many "slowEqual" [.string (".".intercalate path), v]).compile =
      .ok (.condition (.slowEqual path v)) := by
  have hconstruct : Operator.slowEqual.construct none
      (some [.string (".".intercalate path), v]) = .ok (.slowEqual path v) := by
    rw [Operator.construct_slowEqual_eq, h.path?_intercalate]
    rfl
  have hname : Operator.ofName? "slowEqual" = some .slowEqual := Operator.ofName?_name .slowEqual
  simp only [Filter.many, Filter.compile, Filter.compileAt, Leaf.compile, Operator.resolve, hname,
    hconstruct, bind, Except.bind]
  rfl

/-- A search for what is written in the line of a message at a path that the message keeps, the
last one counting of several fields of the content with one name: the value can be read as an
operand, the search for it at this path compiles, and it finds the message unless an integer is
written for one of the two times. -/
theorem slowEqual_finds_written {line : String} (hm : ofText line = .ok m) (hpath : Kept path)
    (hw : (Draft.ofText line).1.Writes path w) :
    ∃ v p, Decoder.value contentNesting w = .ok v ∧
      (Filter.many "slowEqual" [.string (".".intercalate path), v]).compile = .ok p ∧
      (p.holds m = true ↔ ¬ (path ∈ timePaths ∧ v.json.IsInteger)) := by
  obtain ⟨m', hdecode, hm⟩ := bind_eq_ok_iff.1 hm
  split at hm
  · cases hm
  cases hm
  obtain ⟨j, hj, hlookup⟩ := lookup?_of_writes hpath hdecode hw
  refine ⟨.ofJson j, .condition (.slowEqual path (.ofJson j)), map_eq_ok_iff.2 ⟨j, hj, rfl⟩,
    hpath.compile_slowEqual _, ?_⟩
  show (m.lookup? path).any _ = true ↔ _
  rw [hlookup]
  exact same_found path j.sorted

/-- In a message whose content has a name twice the second value is found. The integer that is
written for the sequence number is found, the one that is written for the claimed time is not,
though the message is decoded as one of this time. -/
theorem slowEqual_finds_written_integers :
    let number (i : Nat) : Json := .number (.ofNat i)
    let content : Json := .object [("about", .object [("n", number 2)]),
      ("about", .object [("n", number 3)])]
    let entry : Json := .object [("author", .string "@a"), ("sequence", number 7),
      ("timestamp", number 1000), ("content", content)]
    let whole : Json :=
      .object [("key", .string "%1"), ("value", entry), ("timestamp", number 1005)]
    let line := whole.compact
    let m : Message := ⟨"%1", ⟨none, "@a", 7, .ofInt 1000, .ofJson content⟩, .ofInt 1005, none⟩
    let Writes (path : List String) (j : Json) : Prop :=
      (Draft.ofText line).1.Writes path (.ofJson j)
    let Finds (path : List String) (j : Json) : Prop :=
      ∃ p, (Filter.many "slowEqual" [.string (".".intercalate path), .ofJson j]).compile = .ok p ∧
        p.holds m = true
    ofText line = .ok m ∧
      (Kept ["value", "content", "about", "n"] ∧
        Writes ["value", "content", "about", "n"] (number 3) ∧
        Finds ["value", "content", "about", "n"] (number 3)) ∧
      (Kept ["value", "sequence"] ∧ Writes ["value", "sequence"] (number 7) ∧
        Finds ["value", "sequence"] (number 7)) ∧
      (Kept ["value", "timestamp"] ∧ Writes ["value", "timestamp"] (number 1000) ∧
        ¬ Finds ["value", "timestamp"] (number 1000)) := by
  intro number content entry whole line m Writes Finds
  have hvalue (j : Json) (n : Nat) (h : j.depth ≤ n) :
      Decoder.value n (.ofJson j) = .ok (.ofJson j) :=
    map_eq_ok_iff.2 ⟨j, Draft.json_ofJson n j h, rfl⟩
  have hentry (n : Nat) (h : content.depth ≤ n) :
      Entry.record.decode (n + 1) (.ofJson entry) = .ok m.entry := by
    rw [Draft.ofJson, Record.decode]
    simp only [Draft.ofFields]
    rw [Field.readMembers_cons rfl rfl (bind_of_eq_ok (Decoder.string_ofJson _ "@a")),
      Field.readMembers_cons rfl rfl (bind_of_eq_ok (Decoder.word_ofJson _ "u64" 7)),
      Field.readMembers_cons rfl rfl (bind_of_eq_ok rfl),
      Field.readMembers_cons rfl rfl (bind_of_eq_ok (hvalue content n h))]
    rfl
  have hwhole (n : Nat) (h : content.depth ≤ n) :
      record.decode (n + 2) (.ofJson whole) = .ok m := by
    rw [Draft.ofJson, Record.decode]
    simp only [Draft.ofFields]
    rw [Field.readMembers_cons rfl rfl (bind_of_eq_ok (Decoder.string_ofJson _ "%1")),
      Field.readMembers_cons rfl rfl (bind_of_eq_ok (hentry n h)),
      Field.readMembers_cons rfl rfl (bind_of_eq_ok rfl)]
    rfl
  have htext : Draft.ofText line = (.ofJson whole, false) := Draft.ofText_compact whole
  have hm : ofText line = .ok m := by
    rw [ofText, Decoder.run, htext]
    exact bind_of_eq_ok (hwhole contentNesting (by decide))
  have hfinds {path : List String} {j : Json} (hpath : Kept path) (hw : Writes path j)
      (hdepth : j.depth ≤ contentNesting) :
      Finds path j ↔ ¬ (path ∈ timePaths ∧ j.sorted.IsInteger) := by
    obtain ⟨v, p, hv, hp, hiff⟩ := slowEqual_finds_written hm hpath hw
    cases hv.symm.trans (hvalue j contentNesting hdepth)
    constructor
    · rintro ⟨p', hp', hholds⟩
      cases hp.symm.trans hp'
      exact hiff.1 hholds
    · exact fun h => ⟨p, hp, hiff.2 h⟩
  have habout : Writes ["value", "content", "about", "n"] (number 3) := by
    show (Draft.ofText line).1.Writes _ _
    rw [htext]
    exact .ofJson_field [_] (by decide) (.ofJson_field [_, _, _] (by decide)
      (.ofJson_field [_] (by decide) (.ofJson_field [] (by decide) (.here _))))
  have hsequence : Writes ["value", "sequence"] (number 7) := by
    show (Draft.ofText line).1.Writes _ _
    rw [htext]
    exact .ofJson_field [_] (by decide) (.ofJson_field [_] (by decide) (.here _))
  have htime : Writes ["value", "timestamp"] (number 1000) := by
    show (Draft.ofText line).1.Writes _ _
    rw [htext]
    exact .ofJson_field [_] (by decide) (.ofJson_field [_, _] (by decide) (.here _))
  have hkept : Kept ["value", "content", "about", "n"] := .content (by decide)
  have hkeptSequence : Kept ["value", "sequence"] := .signed (by decide)
  have hkeptTime : Kept ["value", "timestamp"] := .signed (by decide)
  refine ⟨hm, ⟨hkept, habout, (hfinds hkept habout (by decide)).2 ?_⟩,
    ⟨hkeptSequence, hsequence, (hfinds hkeptSequence hsequence (by decide)).2 ?_⟩,
    ⟨hkeptTime, htime, fun h => (hfinds hkeptTime htime (by decide)).1 h ?_⟩⟩
  · exact fun h => absurd h.1 (by decide)
  · exact fun h => absurd h.1 (by decide)
  · exact ⟨by decide, 1000, by decide, rfl⟩

end Message

end FeedQuery
