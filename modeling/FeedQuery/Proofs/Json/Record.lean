import FeedQuery.Json.Record
import FeedQuery.Proofs.Json.Read

/-!
Reading of records: a member that is a field of the record is read as this field, and what holds of
the empty record and is kept by every field holds of what is read.
-/
namespace FeedQuery

theorem Draft.reject_ne_ok {α : Type} (expected : String) (d : Draft) (a : α) :
    d.reject expected ≠ .ok a := by
  intro h
  obtain ⟨_, -, h⟩ := bind_eq_ok_iff.1 h
  cases h

/-- What stands in a container. -/
def Draft.parts : Draft → List Draft
  | .array items _ => items
  | .object members _ => members.map Prod.snd
  | _ => []

namespace Field

variable {σ : Type} {fields : List (Field σ)} {field : Field σ} {name : String} {n : Nat}

theorem readMembers_cons (hfind : fields.find? (·.name == name) = some field) {d : Draft}
    {s s' : σ} (hgiven : field.given s = false) (hread : field.read n d s = .ok s')
    (members : List (Quotation × Draft)) :
    readMembers fields n ((.ofString name, d) :: members) none s =
      readMembers fields n members none s' := by
  rw [readMembers, Draft.decode_ofString]
  simp only [bind, Except.bind, hfind, hgiven, Bool.false_eq_true, ↓reduceIte, hread]

theorem readMembers_singleton (hfind : fields.find? (·.name == name) = some field) {s : σ}
    (hgiven : field.given s = false) (n : Nat) (d : Draft) :
    readMembers fields n [(.ofString name, d)] none s = field.read n d s := by
  rw [readMembers, Draft.decode_ofString]
  simp only [bind, Except.bind, hfind, hgiven, Bool.false_eq_true, ↓reduceIte]
  cases field.read n d s <;> rfl

variable {P : σ → Prop} {s s' : σ} {flaw? : Option Flaw}

/-- A member that is no field is passed over, one that is a field was not there before. -/
theorem readMembers_cons_eq_ok {key : Quotation} {d : Draft}
    {members : List (Quotation × Draft)}
    (h : readMembers fields n ((key, d) :: members) flaw? s = .ok s') :
    ∃ name, key.decode = .ok name ∧
      ((fields.find? (·.name == name) = none ∧ readMembers fields n members flaw? s = .ok s') ∨
        ∃ field s₁, fields.find? (·.name == name) = some field ∧ field.given s = false ∧
          field.read n d s = .ok s₁ ∧ readMembers fields n members flaw? s₁ = .ok s') := by
  obtain ⟨name, hname, h⟩ := bind_eq_ok_iff.1 h
  refine ⟨name, hname, ?_⟩
  dsimp only at h
  split at h
  · rename_i hfind
    obtain ⟨_, -, h⟩ := bind_eq_ok_iff.1 h
    exact .inl ⟨hfind, h⟩
  · rename_i field hfind
    split at h
    · cases h
    · rename_i hgiven
      obtain ⟨s₁, hs₁, h⟩ := bind_eq_ok_iff.1 h
      exact .inr ⟨field, s₁, hfind, eq_false_of_ne_true hgiven, hs₁, h⟩

theorem readMembers_invariant_of_mem {members : List (Quotation × Draft)}
    (hread : ∀ field ∈ fields, ∀ d ∈ members.map Prod.snd, ∀ s s', field.given s = false → P s →
      field.read n d s = .ok s' → P s')
    (h : readMembers fields n members flaw? s = .ok s') (hs : P s) : P s' := by
  induction members generalizing s with
  | nil =>
    cases flaw? <;> cases h
    exact hs
  | cons member members ih =>
    have hread' := fun field hf d hd => hread field hf d (List.mem_cons_of_mem member.2 hd)
    obtain ⟨name, -, ⟨-, h⟩ | ⟨field, s₁, hfind, hgiven, hs₁, h⟩⟩ := readMembers_cons_eq_ok h
    · exact ih hread' h hs
    · have hs₁ := hread field (List.mem_of_find?_eq_some hfind) member.2 List.mem_cons_self s s₁
        hgiven hs hs₁
      exact ih hread' h hs₁

theorem readMembers_invariant
    (hread : ∀ field ∈ fields, ∀ d s s', field.given s = false → P s →
      field.read n d s = .ok s' → P s')
    {members : List (Quotation × Draft)} (h : readMembers fields n members flaw? s = .ok s')
    (hs : P s) : P s' :=
  readMembers_invariant_of_mem (fun field hf d _ => hread field hf d) h hs

theorem readItems_invariant_of_mem {expected : String} {position : Nat} {items : List Draft}
    (hread : ∀ field ∈ fields, ∀ d ∈ items, ∀ s s', P s → field.read n d s = .ok s' → P s')
    (h : readItems n expected position fields items flaw? s = .ok s') (hs : P s) : P s' := by
  fun_induction readItems n expected position fields items flaw? s with
  | case1 =>
    cases h
    exact hs
  | case4 position field fields d items flaw? s ih =>
    obtain ⟨s₁, hs₁, h⟩ := bind_eq_ok_iff.1 h
    exact ih s₁ (fun field hf d hd =>
        hread field (List.mem_cons_of_mem _ hf) d (List.mem_cons_of_mem _ hd)) h
      (hread field List.mem_cons_self d List.mem_cons_self s s₁ hs hs₁)
  | case6 position field fields s hdefault ih =>
    exact ih (fun field hf => hread field (List.mem_cons_of_mem _ hf)) h hs
  | _ => cases h

end Field

namespace Record

variable {σ α : Type} {r : Record σ α} {P : σ → Prop}

theorem require_eq_ok_iff {name : String} {a? : Option α} {a : α} :
    require name a? = .ok a ↔ a? = some a := by
  cases a? <;> simp [require]

/-- What holds of the empty record and is kept where a part of the container is read as a field
holds of what is read. -/
theorem decode_invariant_of_parts {n : Nat} {d : Draft} {a : α} (hempty : P r.empty)
    (hread : ∀ field ∈ r.fields, ∀ part ∈ d.parts, ∀ s s', P s →
      field.read n part s = .ok s' → P s')
    (h : r.decode (n + 1) d = .ok a) : ∃ s, P s ∧ r.finish s = .ok a := by
  have hclose : ∀ x : Except DecodeError σ, (∀ s, x = .ok s → P s) →
      (x >>= r.close) = .ok a → ∃ s, P s ∧ r.finish s = .ok a := by
    intro x hx h
    obtain ⟨s, hs, h⟩ := bind_eq_ok_iff.1 h
    exact ⟨s, hx s hs, mapError_eq_ok_iff.1 h⟩
  cases d with
  | array items flaw? =>
    exact hclose _ (fun s hs => Field.readItems_invariant_of_mem hread hs hempty) h
  | object members flaw? =>
    have hread' : ∀ field ∈ r.fields, ∀ d ∈ members.map Prod.snd, ∀ s s',
        field.given s = false → P s → field.read n d s = .ok s' → P s' :=
      fun field hf d hd s s' _ => hread field hf d hd s s'
    exact hclose _ (fun s hs => Field.readMembers_invariant_of_mem hread' hs hempty) h
  | _ => exact absurd h (Draft.reject_ne_ok _ _ a)

theorem decode_invariant {n : Nat} {d : Draft} {a : α} (hempty : P r.empty)
    (hread : ∀ field ∈ r.fields, ∀ d s s', P s → field.read n d s = .ok s' → P s')
    (h : r.decode (n + 1) d = .ok a) : ∃ s, P s ∧ r.finish s = .ok a :=
  decode_invariant_of_parts hempty (fun field hf d _ => hread field hf d) h

end Record

end FeedQuery
