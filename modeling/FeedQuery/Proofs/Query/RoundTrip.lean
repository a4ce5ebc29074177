import FeedQuery.Proofs.Filter.RoundTrip
import FeedQuery.Query

/-!
The text of a query is decoded as the query without the nulls of its filter, which compiles alike.
The queries that are decoded as they are include all that any text is decoded as.
-/
namespace FeedQuery.Query

/-- The query with every value of a node of its filter that is null left out, and nothing else
changed. -/
def withoutNulls (q : Query) : Query := ⟨q.filter.withoutNulls, q.paginate?⟩

theorem depth_toJson_le_iff {n : Nat} {q : Query} :
    q.toJson.depth ≤ n + 1 ↔ q.filter.toJson.depth ≤ n := by
  rcases q with ⟨filter, _ | size⟩ <;> simp [toJson, Json.depth, Json.depthFields]

theorem decode_ofJson {n : Nat} {q : Query} (h : q.toJson.depth ≤ n + 1) :
    record.decode (n + 1) (.ofJson q.toJson) = .ok q.withoutNulls := by
  have hfilter := bind_of_eq_ok (f := fun f => .ok (Partial.mk (some f) none))
    (RawFilter.decode_ofJson q.filter (depth_toJson_le_iff.1 h))
  rcases q with ⟨filter, paginate?⟩
  rw [toJson, Draft.ofJson, Record.decode, Draft.ofFields]
  cases paginate? with
  | none =>
    rw [Field.readMembers_cons rfl rfl hfilter]
    rfl
  | some size =>
    have hsize : (Decoder.word "usize").optional n (.ofJson (.number (.ofUInt64 size))) =
        .ok (some size) := Decoder.optional_eq_some nofun (Decoder.word_ofJson n "usize" size)
    simp only [Option.map_some, Option.toList_some, Draft.ofFields]
    rw [Field.readMembers_cons rfl rfl hfilter,
      Field.readMembers_cons rfl rfl (bind_of_eq_ok hsize)]
    rfl

theorem ofText_compact {q : Query} (h : q.toJson.depth ≤ Decoder.nesting) :
    ofText q.toJson.compact = .ok q.withoutNulls := by
  rw [ofText, Decoder.run, Draft.ofText_compact]
  exact bind_of_eq_ok (decode_ofJson h)

/-- A filter as a text gives it, where it is read already. -/
def Partial.Fits (n : Nat) (p : Partial) : Prop := ∀ f, p.filter? = some f → RawFilter.Plain n f

theorem Partial.Fits.read {n : Nat} {field : Field Partial} (hfield : field ∈ record.fields)
    (d : Draft) (p p' : Partial) (hp : p.Fits n) (h : field.read n d p = .ok p') : p'.Fits n := by
  simp only [record, List.mem_cons, List.not_mem_nil, or_false] at hfield
  rcases hfield with rfl | rfl <;> obtain ⟨x, hx, h⟩ := bind_eq_ok_iff.1 h <;> cases h
  case inl =>
    rintro f ⟨⟩
    exact RawFilter.plain_of_decode n d x hx
  case inr => exact hp

theorem plain_of_decode {n : Nat} {d : Draft} {q : Query} (h : record.decode (n + 1) d = .ok q) :
    RawFilter.Plain n q.filter := by
  have hempty : record.empty.Fits n := by
    rintro f ⟨⟩
  obtain ⟨p, hp, hfinish⟩ := Record.decode_invariant hempty (fun _ => Partial.Fits.read) h
  obtain ⟨filter, hfilter, hfinish⟩ := bind_eq_ok_iff.1 hfinish
  cases hfinish
  exact hp filter (Record.require_eq_ok_iff.1 hfilter)

/-- How deep the filter of a query may be nested: as deep as a text, in one record. -/
def filterNesting : Nat := Decoder.nesting - 1

theorem plain_of_ofText {text : String} {q : Query} (h : ofText text = .ok q) :
    RawFilter.Plain filterNesting q.filter := by
  obtain ⟨q', hq, h⟩ := bind_eq_ok_iff.1 h
  split at h
  · cases h
  · cases h
    exact plain_of_decode hq

/-- The text of a query that is not nested too deep is decoded as the query without the nulls of
its filter, and this compiles alike. The text of a query that some text is decoded as is decoded
as the query. -/
theorem ofText_toJson :
    (∀ q : Query, q.toJson.depth ≤ Decoder.nesting →
      ofText q.toJson.compact = .ok q.withoutNulls ∧
        q.withoutNulls.filter.compile = q.filter.compile) ∧
    ∀ (text : String) (q : Query), ofText text = .ok q → ofText q.toJson.compact = .ok q := by
  refine ⟨fun q h => ⟨ofText_compact h, q.filter.compile_withoutNulls⟩, fun text q h => ?_⟩
  obtain ⟨hdepth, hnulls⟩ := plain_of_ofText h
  have hself : q.withoutNulls = q := by rw [withoutNulls, hnulls]
  rw [ofText_compact (depth_toJson_le_iff.2 hdepth), hself]

/-- A filter with two nulls: the value beside its list, and the value of the leaf in the list, whose
operand is among its values. -/
def nullsNested : Query :=
  ⟨⟨some [⟨none, none, some "author", some .null, some [.string "alice"]⟩], none, none,
    some .null, none⟩, some 5⟩

/-- The same query without the two nulls. -/
def nullsGone : Query :=
  ⟨⟨some [⟨none, none, some "author", none, some [.string "alice"]⟩], none, none, none, none⟩,
    some 5⟩

theorem ofText_nullsNested :
    ofText nullsNested.toJson.compact = .ok nullsGone ∧
      ofText nullsGone.toJson.compact = .ok nullsGone := by
  have h := (ofText_toJson.1 nullsNested (by decide)).1
  exact ⟨h, ofText_toJson.2 _ nullsGone h⟩

end FeedQuery.Query
