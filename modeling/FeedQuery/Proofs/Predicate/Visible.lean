import FeedQuery.Log
import FeedQuery.Proofs.Json.Same
import FeedQuery.Proofs.Predicate.Conditions
import FeedQuery.Sample

/-!
What a predicate without equalities on paths sees of a message: its key, its author, the claimed
time, whether it is private, and of the content no more than the fields of an object. All else may
be exchanged without a query finding other messages.
-/
namespace FeedQuery

theorem Comparison.holds_congr {x y : Binary64} (h : x.units = y.units) (op : Comparison)
    (bound : Extended) : op.holds (.finite x) bound = op.holds (.finite y) bound := by
  cases bound with
  | finite z => cases op <;> simp [holds, Binary64.lt, Binary64.le, h]
  | infinite negative => cases op <;> cases negative <;> rfl
  | undefined => cases op <;> rfl

namespace Message

/-- Messages that show the same to conditions. Their contents are equal, or neither is an object,
so that neither has fields. -/
structure LooksLike (m m' : Message) : Prop where
  key : m.key = m'.key
  author : m.author = m'.author
  timestamp : m.entry.timestamp.same m'.entry.timestamp = true
  isPrivate : m.isPrivate = m'.isPrivate
  content : m.entry.content.json.same m'.entry.content.json = true ∨
    m.entry.content.json.kind ≠ .object ∧ m'.entry.content.json.kind ≠ .object

variable {m m' : Message}

theorem field?_of_kind (h : m.entry.content.json.kind ≠ .object) (name : String) :
    m.field? name = none := by
  unfold field?
  cases hj : m.entry.content.json with
  | object fields =>
    rw [hj] at h
    exact absurd rfl h
  | _ => rfl

theorem mentionsFeed_eq_of_same (bare : Bool) (id : String) (v w : Json) (h : v.same w = true) :
    mentionsFeed bare id v = mentionsFeed bare id w := by
  fun_cases Json.same v w with
  | case4 s t => rw [beq_iff_eq.1 h]
  | case6 fs gs => rw [mentionsFeed, mentionsFeed, (Json.sameField_get? h "link").bind_text?]
  | case7 => simp_all [Json.same]
  | _ => rfl

namespace LooksLike

theorem field? (h : LooksLike m m') (name : String) :
    Json.SameField (m.field? name) (m'.field? name) := by
  rcases h.content with hsame | ⟨hkind, hkind'⟩
  · exact Json.sameField_get? hsame name
  · rw [field?_of_kind hkind, field?_of_kind hkind']
    exact .none

theorem fieldText? (h : LooksLike m m') (name : String) :
    m.fieldText? name = m'.fieldText? name := (h.field? name).bind_text?

theorem mentions (h : LooksLike m m') (bare : Bool) (id : String) :
    m.mentions bare id = m'.mentions bare id := by
  have hfield := h.field? "mentions"
  unfold Message.mentions
  generalize m.field? "mentions" = v? at hfield ⊢
  generalize m'.field? "mentions" = w? at hfield ⊢
  cases hfield with
  | none => rfl
  | @some v w hsame =>
    fun_cases Json.same v w with
    | case5 xs ys => exact Json.any_eq_of_sameItems (mentionsFeed_eq_of_same bare id) hsame
    | case7 => simp_all [Json.same]
    | _ => rfl

theorem hasBranch (h : LooksLike m m') (key : String) : m.hasBranch key = m'.hasBranch key := by
  have hfield := h.field? "branch"
  unfold Message.hasBranch
  generalize m.field? "branch" = v? at hfield ⊢
  generalize m'.field? "branch" = w? at hfield ⊢
  cases hfield with
  | none => rfl
  | @some v w hsame =>
    fun_cases Json.same v w with
    | case4 s t => rw [beq_iff_eq.1 hsame]
    | case5 xs ys =>
      refine Json.any_eq_of_sameItems (fun x y hxy => ?_) hsame
      rw [Json.text?_eq_of_same hxy]
    | case7 => simp_all [Json.same]
    | _ => rfl

theorem votesFor (h : LooksLike m m') (key : String) : m.votesFor key = m'.votesFor key := by
  have hlink := ((h.field? "vote").bind_get? "link").bind_text?
  rw [Message.votesFor, Message.votesFor, type?, type?, h.fieldText?, hlink]

theorem isRoot (h : LooksLike m m') : m.isRoot = m'.isRoot := (h.field? "root").all_isNull

theorem number? (h : LooksLike m m') (field : String) :
    Option.Rel (fun x y => Binary64.units x = y.units) (m.number? field) (m'.number? field) := by
  unfold Message.number?
  split
  · exact .some ((Binary64.same_iff _ _).1 h.timestamp)
  · exact .none

theorem textHolds (h : LooksLike m m') (operand : String) (t : TextOperator) :
    t.holds m operand = t.holds m' operand := by
  cases t <;> simp only [TextOperator.holds, type?, h.fieldText?, h.author, h.key, h.mentions,
    h.votesFor, h.hasBranch]

theorem flagHolds (h : LooksLike m m') (f : FlagOperator) : f.holds m = f.holds m' := by
  cases f <;> simp only [FlagOperator.holds, h.isRoot, h.isPrivate]

theorem conditionHolds (h : LooksLike m m') {c : Condition}
    (hc : ∀ path v, c ≠ .slowEqual path v) : c.holds m = c.holds m' := by
  cases c with
  | text t operand => exact h.textHolds operand t
  | flag f => exact h.flagHolds f
  | slowEqual path v => exact absurd rfl (hc path v)
  | compare field op bound =>
    have hnumber := h.number? field
    rw [Condition.holds, Condition.holds]
    generalize m.number? field = x? at hnumber ⊢
    generalize m'.number? field = y? at hnumber ⊢
    cases hnumber with
    | none => rfl
    | some hunits => exact Comparison.holds_congr hunits op bound

/-- No predicate without equalities on paths tells them apart. -/
theorem holds (h : LooksLike m m') {p : Predicate}
    (hp : ∀ path v, .slowEqual path v ∉ p.conditions) : p.holds m = p.holds m' := by
  apply Predicate.holds_eq_of_conditions
  intro c hc
  apply h.conditionHolds
  rintro path v rfl
  exact hp path v hc

end LooksLike

theorem looksLike_received (m : Message) (previous? : Option String) (sequence : UInt64)
    (received : Binary64) : m.LooksLike { m with
      entry := { m.entry with previous? := previous?, sequence := sequence }
      received := received } where
  key := rfl
  author := rfl
  timestamp := (Binary64.same_iff _ _).2 rfl
  isPrivate := rfl
  content := .inl (Json.same_refl _)

theorem looksLike_flags {m : Message} {flags? : Option Flags}
    (h : m.isPrivate = { m with flags? := flags? }.isPrivate) :
    m.LooksLike { m with flags? := flags? } where
  key := rfl
  author := rfl
  timestamp := (Binary64.same_iff _ _).2 rfl
  isPrivate := h
  content := .inl (Json.same_refl _)

/-- A ciphertext looks like any other. -/
theorem looksLike_cipher {m : Message} {cipher : String} (h : m.entry.content = .string cipher)
    (cipher' : String) : m.LooksLike { m with
      entry := { m.entry with content := .string cipher' } } where
  key := rfl
  author := rfl
  timestamp := (Binary64.same_iff _ _).2 rfl
  isPrivate := by simp [Message.isPrivate, h, Json.isString]
  content := .inr ⟨by simp [h, Json.kind], by simp [Json.kind]⟩

end Message

/-- A page with each of its rows changed. -/
def Page.map (change : Message → Message) (page : Page) : Page :=
  { page with rows := page.rows.map change }

namespace Log

/-- A log with each of its messages changed. -/
def map (change : Message → Message) (l : Log) : Log := ⟨l.messages.map change⟩

variable {p : Predicate} {change : Message → Message} {l : Log}

theorem query_map (h : ∀ m ∈ l.messages, p.holds (change m) = p.holds m) :
    (l.map change).query p = (l.query p).map change := by
  rw [query, query, map, List.filter_map]
  exact congrArg (List.map change) (List.filter_congr h)

theorem scan_map (n : Nat) {ms : List Message} (h : ∀ m ∈ ms, p.holds (change m) = p.holds m) :
    scan p n (ms.map change) = ((scan p n ms).1.map change, (scan p n ms).2) := by
  induction ms generalizing n with
  | nil => cases n <;> rfl
  | cons m ms ih =>
    rw [List.forall_mem_cons] at h
    cases n with
    | zero => rfl
    | succ n =>
      simp only [List.map_cons, scan, h.1]
      split
      · rw [ih n h.2, List.map_cons]
      · rw [ih (n + 1) h.2]

theorem fetch_map (h : ∀ m ∈ l.messages, p.holds (change m) = p.holds m) (size : PageSize)
    (cursor : Cursor) :
    (l.map change).fetch p size cursor = (l.fetch p size cursor).map (Page.map change) := by
  have hdrop : ∀ m ∈ l.messages.drop cursor.position, p.holds (change m) = p.holds m :=
    fun m hm => h m (List.mem_of_mem_drop hm)
  have hlength : (l.map change).length = l.length := List.length_map change
  rw [fetch, fetch, hlength, map, ← List.map_drop, scan_map size.val hdrop]
  split
  · rfl
  · dsimp only
    split <;> rfl

/-- A predicate without equalities on paths says the same of messages that look alike: that have
the same key, author, claimed time and privacy, and equal contents or none that is an object. So the
link to the previous message, the sequence number and the time of receipt make no difference, nor do
flags beyond privacy or the text of a ciphertext. In a log whose messages are changed in such a way
the same ones are found, at once or page by page. -/
theorem found_by_visible_parts (p : Predicate)
    (hp : ∀ path v, .slowEqual path v ∉ p.conditions) :
    (∀ m m' : Message, m.LooksLike m' → p.holds m = p.holds m') ∧
    (∀ (m : Message) previous? sequence received, p.holds { m with
      entry := { m.entry with previous? := previous?, sequence := sequence }
      received := received } = p.holds m) ∧
    (∀ (m : Message) flags?, m.isPrivate = { m with flags? := flags? }.isPrivate →
      p.holds { m with flags? := flags? } = p.holds m) ∧
    (∀ (m : Message) cipher cipher', m.entry.content = .string cipher →
      p.holds { m with entry := { m.entry with content := .string cipher' } } = p.holds m) ∧
    ∀ (l : Log) (change : Message → Message), (∀ m ∈ l.messages, m.LooksLike (change m)) →
      (l.map change).query p = (l.query p).map change ∧
      ∀ size cursor,
        (l.map change).fetch p size cursor = (l.fetch p size cursor).map (Page.map change) := by
  refine ⟨fun m m' h => h.holds hp, ?_, ?_, ?_, ?_⟩
  · intro m previous? sequence received
    exact ((m.looksLike_received previous? sequence received).holds hp).symm
  · intro m flags? h
    exact ((Message.looksLike_flags h).holds hp).symm
  · intro m cipher cipher' h
    exact ((Message.looksLike_cipher h cipher').holds hp).symm
  · intro l change h
    have hholds : ∀ m ∈ l.messages, p.holds (change m) = p.holds m :=
      fun m hm => ((h m hm).holds hp).symm
    exact ⟨query_map hholds, fetch_map hholds⟩

/-- Every message is received at another time and has another number, and the encrypted one has
another text. -/
theorem found_by_visible_parts_mixed :
    let p : Predicate := .combine .or [.combine .and [.condition (.text .author Sample.alice),
      .condition (.flag .isPrivate)], .condition (.text .hasBranch Sample.thread),
      .condition (.compare "timestamp" .lt (.finite (.ofInt 1500)))]
    let change (m : Message) : Message := { m with
      entry := { m.entry with
        sequence := 0
        content := if m.isPrivate then .string "other.box" else m.entry.content }
      received := .ofInt 0 }
    (∀ path v, .slowEqual path v ∉ p.conditions) ∧
    (∀ m ∈ Sample.mixed.messages, m.LooksLike (change m)) ∧
    (Sample.mixed.map change).query p = (Sample.mixed.query p).map change ∧
    (Sample.mixed.query p).map Message.key =
      ["%@alice.ed25519-1", "%@alice.ed25519-2", "%@alice.ed25519-3", "%@bob.ed25519-3"] := by
  intro p change
  have hp : ∀ path v, .slowEqual path v ∉ p.conditions := by
    simp [p, Predicate.conditions, Predicate.conditionsOf]
  have hcontent : ∀ m ∈ Sample.mixed.messages, m.isPrivate = true →
      m.entry.content.json.isString = true := by decide +kernel
  have hlooks : ∀ m ∈ Sample.mixed.messages, m.LooksLike (change m) := by
    intro m hm
    by_cases hprivate : m.isPrivate = true
    · have hstring := hcontent m hm hprivate
      have hcipher : (change m).entry.content = .string "other.box" := by simp [change, hprivate]
      refine ⟨rfl, rfl, (Binary64.same_iff _ _).2 rfl, ?_, .inr ⟨?_, ?_⟩⟩
      · rw [hprivate, Message.isPrivate, hcipher]
        rfl
      · cases hj : m.entry.content.json <;> simp_all [Json.isString, Json.kind]
      · simp [hcipher, Json.kind]
    · have hchange : change m = { m with
          entry := { m.entry with sequence := 0 }, received := .ofInt 0 } := by
        simp [change, hprivate]
      rw [hchange]
      exact m.looksLike_received m.entry.previous? 0 (.ofInt 0)
  obtain ⟨-, -, -, -, hlog⟩ := found_by_visible_parts p hp
  exact ⟨hp, hlooks, (hlog Sample.mixed change hlooks).1, by decide +kernel⟩

end Log

end FeedQuery
