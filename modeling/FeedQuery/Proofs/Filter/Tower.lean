import FeedQuery.Proofs.Filter.Nesting
import FeedQuery.Proofs.Filter.RoundTrip
import FeedQuery.Proofs.Filter.WireForm

/-!
Towers of combinators with one child each, in every spelling of their nodes. They are the deepest
filters that a nesting has room for, and the passes over them need a call for each node.
-/
namespace FeedQuery

namespace Draft

mutual

theorem nesting_ofJson : (j : Json) → (ofJson j).nesting = j.depth
  | .null | .bool _ | .number _ | .string _ => rfl
  | .array items => congrArg (· + 1) (nestingItems_ofItems items)
  | .object fields => congrArg (· + 1) (nestingMembers_ofFields fields)

theorem nestingItems_ofItems : (items : List Json) →
    nestingItems (ofItems items) = Json.depthItems items
  | [] => rfl
  | j :: items => by
    rw [ofItems, nestingItems, nesting_ofJson j, nestingItems_ofItems items, Json.depthItems]

theorem nestingMembers_ofFields : (fields : List (String × Json)) →
    nestingMembers (ofFields fields) = Json.depthFields fields
  | [] => rfl
  | (k, v) :: fields => by
    rw [ofFields, nestingMembers, nesting_ofJson v, nestingMembers_ofFields fields,
      Json.depthFields]

end

theorem nestingOfText_compact (j : Json) : nestingOfText j.compact = j.depth := by
  rw [nestingOfText, ofText_compact, nesting_ofJson]

end Draft

theorem Decoder.run_compact {α : Type} (decoder : Decoder α) (j : Json) :
    run decoder j.compact = decoder nesting (.ofJson j) := by
  rw [run, Draft.ofText_compact]
  show (decoder nesting (.ofJson j) >>= _) = _
  cases decoder nesting (.ofJson j) <;> rfl

theorem Filter.ofText_compact (j : Json) : ofText j.compact =
    (RawFilter.decode Decoder.nesting (.ofJson j)).mapError .decode >>= fun f =>
      (f.check .root).mapError .shape := by
  rw [ofText, Draft.ofText_compact]
  dsimp only
  cases RawFilter.decode Decoder.nesting (.ofJson j) with
  | error e => rfl
  | ok f =>
    show (f.check .root).mapError ReadError.shape >>= _ = (f.check .root).mapError .shape
    cases f.check .root <;> rfl

namespace RawFilter

/-- A node that holds one list of children, or none, and nothing else. -/
def ofList? : Combinator → Option (List RawFilter) → RawFilter
  | .and, fs? => ⟨fs?, none, none, none, none⟩
  | .or, fs? => ⟨none, fs?, none, none, none⟩

section

variable (children : Draft → Except DecodeError (Option (List RawFilter))) (n : Nat) (d : Draft)

theorem decode_object_list (c : Combinator) :
    (record children).decode (n + 1) (.object [(.ofString c.name, d)] none) =
      (children d).map (ofList? c) := by
  rw [Record.decode]
  cases c <;> rw [Combinator.name, Field.readMembers_singleton rfl rfl]
  all_goals
    show (children d >>= _) >>= _ = _
    cases children d <;> rfl

theorem decode_array_and :
    (record children).decode (n + 1) (.array [d] none) = (children d).map (ofList? .and) := by
  show ((children d >>= _) >>= _) >>= _ = _
  cases children d <;> rfl

theorem decode_array_or (hnull : children .null = .ok none) :
    (record children).decode (n + 1) (.array [.null, d] none) = (children d).map (ofList? .or) := by
  show ((children .null >>= _) >>= _) >>= _ = _
  rw [hnull]
  show ((children d >>= _) >>= _) >>= _ = _
  cases children d <;> rfl

end

theorem decodeChildren_null (n : Nat) : decodeChildren n .null = .ok none := by
  rw [decodeChildren]

theorem decodeChildren_singleton (n : Nat) (d : Draft) :
    decodeChildren (n + 1) (.array [d] none) = (decode n d).map fun f => some [f] := by
  rw [decodeChildren, Draft.readItems]
  cases decode n d <;> rfl

end RawFilter

namespace Tower

/-- How a record is written: as an object of its fields, or as an array of them in their order. -/
inductive Spelling where
  | object
  | array

/-- A combinator with one child, in some spelling of its node. -/
structure Level where
  spelling : Spelling
  combinator : Combinator

def Level.json : Level → Json → Json
  | ⟨.object, c⟩, j => .object [(c.name, .array [j])]
  | ⟨.array, .and⟩, j => .array [.array [j]]
  | ⟨.array, .or⟩, j => .array [.null, .array [j]]

/-- A leaf without operands, below some levels. -/
def json (leaf : Spelling) : List Level → Json
  | [] => match leaf with
    | .object => .object [("operator", .string "isRoot")]
    | .array => .array [.null, .null, .string "isRoot"]
  | l :: ls => l.json (json leaf ls)

def queryJson (s : Spelling) (filter : Json) : Json :=
  match s with
  | .object => .object [("where", filter)]
  | .array => .array [filter]

/-- The filter that is written so. -/
def filter : List Level → Filter
  | [] => .bare "isRoot"
  | l :: ls => .combine l.combinator [filter ls]

def predicate : List Level → Predicate
  | [] => .condition (.flag .isRoot)
  | l :: ls => .combine l.combinator [predicate ls]

theorem depth_json (leaf : Spelling) (ls : List Level) :
    (json leaf ls).depth = 2 * ls.length + 1 := by
  induction ls with
  | nil => cases leaf <;> rfl
  | cons l ls ih =>
    obtain ⟨_ | _, _ | _⟩ := l <;>
      simp [json, Level.json, Json.depth, Json.depthItems, Json.depthFields, ih] <;> omega

theorem depth_queryJson (s : Spelling) (filter : Json) :
    (queryJson s filter).depth = filter.depth + 1 := by
  cases s <;> simp [queryJson, Json.depth, Json.depthItems, Json.depthFields]

/-- A level takes two containers from the nesting that is left, in every spelling. -/
theorem decode_level (l : Level) (j : Json) (n : Nat) :
    RawFilter.decode (n + 2) (.ofJson (l.json j)) = (RawFilter.decode n (.ofJson j)).map fun f =>
      RawFilter.ofList? l.combinator (some [f]) := by
  have hchildren := RawFilter.decodeChildren_singleton n (.ofJson j)
  have hnull := RawFilter.decodeChildren_null (n + 1)
  rw [RawFilter.decode]
  obtain ⟨_ | _, c⟩ := l
  case object =>
    rw [Level.json, Draft.ofJson, Draft.ofFields, Draft.ofFields, RawFilter.decode_object_list,
      Draft.ofJson, Draft.ofItems, Draft.ofItems, hchildren]
    cases RawFilter.decode n (.ofJson j) <;> rfl
  case array =>
    cases c with
    | and =>
      rw [Level.json, Draft.ofJson, Draft.ofItems, Draft.ofItems, RawFilter.decode_array_and,
        Draft.ofJson, Draft.ofItems, Draft.ofItems, hchildren]
      cases RawFilter.decode n (.ofJson j) <;> rfl
    | or =>
      rw [Level.json, Draft.ofJson, Draft.ofItems, Draft.ofItems, Draft.ofItems, Draft.ofJson,
        RawFilter.decode_array_or _ _ _ hnull, Draft.ofJson, Draft.ofItems, Draft.ofItems,
        hchildren]
      cases RawFilter.decode n (.ofJson j) <;> rfl

theorem decode_json (leaf : Spelling) (ls : List Level) (n : Nat) :
    RawFilter.decode n (.ofJson (json leaf ls)) =
      if 2 * ls.length < n then .ok (filter ls).raw else .error .tooDeep := by
  -- What is left may be used up at a node already, or only at the list below it.
  induction ls generalizing n with
  | nil => match n with
    | 0 => cases leaf <;> rfl
    | 1 => cases leaf <;> rfl
    | n + 2 => cases leaf <;> rfl
  | cons l ls ih => match n with
    | 0 => obtain ⟨_ | _, _ | _⟩ := l <;> rfl
    | 1 => obtain ⟨_ | _, _ | _⟩ := l <;> rfl
    | n + 2 =>
      have hlt : 2 * (l :: ls).length < n + 2 ↔ 2 * ls.length < n := by
        rw [List.length_cons]
        omega
      rw [json, decode_level, ih]
      simp only [hlt]
      split
      · obtain ⟨_, _ | _⟩ := l <;> rfl
      · rfl

/-- The record of a query takes one container, in either spelling. -/
theorem decode_queryJson (s : Spelling) (j : Json) (n : Nat) :
    Query.record.decode (n + 1) (.ofJson (queryJson s j)) =
      (RawFilter.decode n (.ofJson j)).map fun f => ⟨f, none⟩ := by
  cases s with
  | object =>
    rw [queryJson, Draft.ofJson, Draft.ofFields, Draft.ofFields, Record.decode,
      Field.readMembers_singleton rfl rfl]
    show (RawFilter.decode n (.ofJson j) >>= _) >>= _ = _
    cases RawFilter.decode n (.ofJson j) <;> rfl
  | array =>
    rw [queryJson, Draft.ofJson, Draft.ofItems, Draft.ofItems]
    show ((RawFilter.decode n (.ofJson j) >>= _) >>= _) >>= _ = _
    cases RawFilter.decode n (.ofJson j) <;> rfl

theorem decode_nesting_json (leaf : Spelling) (ls : List Level) :
    RawFilter.decode Decoder.nesting (.ofJson (json leaf ls)) =
      if ls.length < 64 then .ok (filter ls).raw else .error .tooDeep := by
  have hlt : 2 * ls.length < Decoder.nesting ↔ ls.length < 64 := by
    rw [Decoder.nesting]
    omega
  rw [decode_json]
  simp only [hlt]

theorem ofText_json (leaf : Spelling) (ls : List Level) :
    RawFilter.ofText (json leaf ls).compact =
      if ls.length < 64 then .ok (filter ls).raw else .error .tooDeep := by
  rw [RawFilter.ofText, Decoder.run_compact, decode_nesting_json]

theorem filter_ofText_json (leaf : Spelling) (ls : List Level) :
    Filter.ofText (json leaf ls).compact =
      if ls.length < 64 then .ok (filter ls) else .error (.decode .tooDeep) := by
  rw [Filter.ofText_compact, decode_nesting_json]
  split
  · show ((filter ls).raw.check .root).mapError Filter.ReadError.shape = _
    rw [Filter.check_raw]
    rfl
  · rfl

theorem query_ofText_json (s leaf : Spelling) (ls : List Level) :
    Query.ofText (queryJson s (json leaf ls)).compact =
      if ls.length < 63 then .ok ⟨(filter ls).raw, none⟩ else .error .tooDeep := by
  have hlt : 2 * ls.length < 126 ↔ ls.length < 63 := by omega
  have hdecode : Query.record.decode Decoder.nesting (.ofJson (queryJson s (json leaf ls))) = _ :=
    decode_queryJson s (json leaf ls) 126
  rw [Query.ofText, Decoder.run_compact, hdecode, decode_json]
  simp only [hlt]
  split <;> rfl

theorem depth_filter (ls : List Level) : (filter ls).depth = ls.length + 1 := by
  induction ls with
  | nil => rfl
  | cons l ls ih =>
    rw [filter, Filter.depth, Filter.depths, Filter.depths, ih, List.length_cons]
    omega

theorem compileAt_filter (ls : List Level) (p : Position) :
    (filter ls).compileAt p = .ok (predicate ls) := by
  induction ls generalizing p with
  | nil => rfl
  | cons l ls ih =>
    rw [filter, Filter.compileAt, Filter.compileChildren, ih]
    rfl

variable {n : Nat}

theorem checkWithin_eq_none (ls : List Level) (h : n ≤ ls.length) (p : Position) :
    (filter ls).raw.checkWithin n p = none := by
  induction ls generalizing n p with
  | nil =>
    cases Nat.le_zero.1 h
    rfl
  | cons l ls ih =>
    obtain ⟨_, c⟩ := l
    cases n with
    | zero => cases c <;> rfl
    | succ n =>
      have hchild := ih (Nat.le_of_succ_le_succ h)
      cases c <;>
        rw [filter, Filter.raw, Filter.rawChildren, Filter.rawChildren, RawFilter.checkWithin,
          RawFilter.checkChildrenWithin, hchild] <;> rfl

theorem compileWithin_eq_none (ls : List Level) (h : n ≤ ls.length) (p : Position) :
    (filter ls).compileWithin n p = none := by
  induction ls generalizing n p with
  | nil =>
    cases Nat.le_zero.1 h
    rfl
  | cons l ls ih =>
    cases n with
    | zero => rfl
    | succ n =>
      have hchild := ih (Nat.le_of_succ_le_succ h)
      rw [filter, Filter.compileWithin, Filter.compileChildrenWithin, hchild]
      rfl

theorem holdsWithin_eq_none (m : Message) (ls : List Level) (h : n ≤ ls.length) :
    (predicate ls).holdsWithin m n = none := by
  induction ls generalizing n with
  | nil =>
    cases Nat.le_zero.1 h
    rfl
  | cons l ls ih =>
    obtain ⟨_, c⟩ := l
    cases n with
    | zero => rfl
    | succ n =>
      have hchild := ih (Nat.le_of_succ_le_succ h)
      cases c with
      | and =>
        rw [predicate, Predicate.holdsWithin, Predicate.allHoldWithin, hchild]
        rfl
      | or =>
        rw [predicate, Predicate.holdsWithin, Predicate.anyHoldsWithin, hchild]
        rfl

theorem needsCalls (ls : List Level) : (filter ls).NeedsCalls (ls.length + 1) where
  depth := depth_filter ls
  compiles := ⟨predicate ls, compileAt_filter ls .root⟩
  check _ hk := checkWithin_eq_none ls (Nat.le_of_lt_succ hk)
  compile _ hk := compileWithin_eq_none ls (Nat.le_of_lt_succ hk)
  holds p hp k hk m := by
    cases hp.symm.trans (compileAt_filter ls .root)
    exact holdsWithin_eq_none m ls (Nat.le_of_lt_succ hk)

end Tower

end FeedQuery
