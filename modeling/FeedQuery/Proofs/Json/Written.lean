import FeedQuery.Proofs.Json.Fields
import FeedQuery.Proofs.Json.Record

/-!
What is written in a text at a path of keys, where of several members with one key the last counts.
A generic value that is decoded from the text has the same at this path.
-/
namespace FeedQuery

namespace Draft

/-- The last member with some key: none with the same key stands behind it. -/
def LastMember (members : List (Quotation × Draft)) (name : String) (d : Draft) : Prop :=
  ∃ before key behind, members = before ++ (key, d) :: behind ∧ key.decode = .ok name ∧
    ∀ member ∈ behind, member.1.decode ≠ .ok name

/-- What stands at a path of keys, through one object after the other. -/
inductive Writes : Draft → List String → Draft → Prop where
  | here (d : Draft) : Writes d [] d
  | field {members : List (Quotation × Draft)} {flaw? : Option Flaw} {name : String}
      {path : List String} {d w : Draft} (head : LastMember members name d)
      (tail : Writes d path w) : Writes (.object members flaw?) (name :: path) w

variable {α : Type} {item item' : Draft → Except DecodeError α} {flaw? : Option Flaw}
  {members : List (Quotation × Draft)} {name : String} {d w : Draft} {n : Nat}

theorem readItems_imp (himp : ∀ d a, item d = .ok a → item' d = .ok a) {items : List Draft}
    {as : List α} (h : readItems item items flaw? = .ok as) :
    readItems item' items flaw? = .ok as := by
  induction items generalizing as with
  | nil => cases flaw? <;> exact h
  | cons d items ih =>
    obtain ⟨a, ha, h⟩ := bind_eq_ok_iff.1 h
    obtain ⟨as, has, h⟩ := bind_eq_ok_iff.1 h
    cases h
    exact bind_eq_ok_iff.2 ⟨a, himp d a ha, bind_eq_ok_iff.2 ⟨as, ih has, rfl⟩⟩

theorem readMembers_imp (himp : ∀ d a, item d = .ok a → item' d = .ok a)
    {as : List (String × α)} (h : readMembers item members flaw? = .ok as) :
    readMembers item' members flaw? = .ok as := by
  induction members generalizing as with
  | nil => cases flaw? <;> exact h
  | cons member members ih =>
    obtain ⟨name, hname, h⟩ := bind_eq_ok_iff.1 h
    obtain ⟨a, ha, h⟩ := bind_eq_ok_iff.1 h
    obtain ⟨as, has, h⟩ := bind_eq_ok_iff.1 h
    cases h
    exact bind_eq_ok_iff.2 ⟨name, hname,
      bind_eq_ok_iff.2 ⟨a, himp member.2 a ha, bind_eq_ok_iff.2 ⟨as, ih has, rfl⟩⟩⟩

/-- A reader that may go one container deeper reads the same. -/
theorem json_succ {j : Json} (h : d.json n = .ok j) : d.json (n + 1) = .ok j := by
  induction n generalizing d j with
  | zero =>
    cases d with
    | array | object => cases h
    | _ =>
      rw [json] at h ⊢
      exact h
  | succ n ih =>
    cases d with
    | array items flaw? =>
      rw [json] at h ⊢
      obtain ⟨js, hjs, rfl⟩ := map_eq_ok_iff.1 h
      exact map_eq_ok_iff.2 ⟨js, readItems_imp (fun _ _ => ih) hjs, rfl⟩
    | object members flaw? =>
      rw [json] at h ⊢
      obtain ⟨fs, hfs, rfl⟩ := map_eq_ok_iff.1 h
      exact map_eq_ok_iff.2 ⟨fs, readMembers_imp (fun _ _ => ih) hfs, rfl⟩
    | _ =>
      rw [json] at h ⊢
      exact h

theorem exists_member_of_readMembers {as : List (String × α)}
    (h : readMembers item members flaw? = .ok as) {f : String × α} (hf : f ∈ as) :
    ∃ member ∈ members, member.1.decode = .ok f.1 := by
  induction members generalizing as with
  | nil =>
    cases flaw? <;> cases h
    cases hf
  | cons member members ih =>
    obtain ⟨name, hname, h⟩ := bind_eq_ok_iff.1 h
    obtain ⟨a, -, h⟩ := bind_eq_ok_iff.1 h
    obtain ⟨as, has, h⟩ := bind_eq_ok_iff.1 h
    cases h
    rcases List.mem_cons.1 hf with rfl | hf
    · exact ⟨member, List.mem_cons_self, hname⟩
    · obtain ⟨found, hfound, hdecode⟩ := ih has hf
      exact ⟨found, List.mem_cons_of_mem _ hfound, hdecode⟩

/-- The last member with some key is decoded as the last field with this name. -/
theorem readMembers_of_lastMember (hlast : LastMember members name d) {as : List (String × α)}
    (h : readMembers item members flaw? = .ok as) :
    ∃ before a behind, item d = .ok a ∧ as = before ++ (name, a) :: behind ∧
      name ∉ behind.map Prod.fst := by
  obtain ⟨before, key, behind, rfl, hkey, hbehind⟩ := hlast
  induction before generalizing as with
  | nil =>
    obtain ⟨name', hname, h⟩ := bind_eq_ok_iff.1 h
    obtain ⟨a, ha, h⟩ := bind_eq_ok_iff.1 h
    obtain ⟨as, has, h⟩ := bind_eq_ok_iff.1 h
    cases h
    cases hname.symm.trans hkey
    refine ⟨[], a, as, ha, rfl, fun hmem => ?_⟩
    obtain ⟨f, hf, rfl⟩ := List.mem_map.1 hmem
    obtain ⟨member, hmember, hdecode⟩ := exists_member_of_readMembers has hf
    exact hbehind member hmember hdecode
  | cons member before ih =>
    obtain ⟨name', -, h⟩ := bind_eq_ok_iff.1 h
    obtain ⟨a', -, h⟩ := bind_eq_ok_iff.1 h
    obtain ⟨as, has, h⟩ := bind_eq_ok_iff.1 h
    cases h
    obtain ⟨before', a, behind', ha, rfl, hnot⟩ := ih has
    exact ⟨(name', a') :: before', a, behind', ha, rfl, hnot⟩

theorem ofFields_append (fs gs : List (String × Json)) :
    ofFields (fs ++ gs) = ofFields fs ++ ofFields gs := by
  induction fs with
  | nil => rfl
  | cons f fs ih => rw [List.cons_append, ofFields, ofFields, ih, List.cons_append]

theorem decode_ne_of_mem_ofFields {fields : List (String × Json)}
    (h : name ∉ fields.map Prod.fst) : ∀ member ∈ ofFields fields, member.1.decode ≠ .ok name := by
  induction fields with
  | nil => exact nofun
  | cons f fields ih =>
    obtain ⟨hne, hrest⟩ := not_or.1 (mt List.mem_cons.2 h)
    refine List.forall_mem_cons.2 ⟨?_, ih hrest⟩
    rw [decode_ofString]
    rintro ⟨⟩
    exact hne rfl

/-- The text of a value has at a path what stands there in the value. -/
theorem Writes.ofJson_field (before : List (String × Json)) {v : Json}
    {behind : List (String × Json)} {path : List String} (hlast : name ∉ behind.map Prod.fst)
    (h : (ofJson v).Writes path w) :
    (ofJson (.object (before ++ (name, v) :: behind))).Writes (name :: path) w := by
  rw [ofJson, ofFields_append]
  exact .field ⟨ofFields before, .ofString name, ofFields behind, rfl, decode_ofString name,
    decode_ne_of_mem_ofFields hlast⟩ h

/-- What is written at a path is decoded as what the decoded value has there. -/
theorem Writes.walk?_sorted {d w : Draft} {path : List String} (h : d.Writes path w) {n : Nat}
    {j : Json} (hj : d.json n = .ok j) :
    ∃ found, w.json n = .ok found ∧ j.sorted.walk? path = some found.sorted := by
  induction h generalizing n j with
  | here d => exact ⟨j, hj, rfl⟩
  | field head tail ih =>
    cases n with
    | zero => cases hj
    | succ n =>
      rw [json] at hj
      obtain ⟨fields, hfields, rfl⟩ := map_eq_ok_iff.1 hj
      obtain ⟨before, v, behind, hv, rfl, hlast⟩ := readMembers_of_lastMember head hfields
      obtain ⟨found, hfound, hwalk⟩ := ih hv
      refine ⟨found, json_succ hfound, ?_⟩
      rw [Json.walk?_cons, Json.get?_sorted_of_last hlast, Option.bind_some, hwalk]

end Draft

namespace Field

variable {σ α : Type} {fields : List (Field σ)} {field : Field σ} {get : σ → Option α} {n : Nat}

/-- A field that reads one part of the partial record. -/
def Sets (field : Field σ) (item : Decoder α) (get : σ → Option α) : Prop :=
  ∀ n d s s', field.read n d s = .ok s' → ∃ a, item n d = .ok a ∧ get s' = some a

/-- Fields of which one at most has to do with some part of the partial record: this one is not read
where the part is there already, and the others leave the part as it is. -/
def Apart (get : σ → Option α) (fields : List (Field σ)) : Prop :=
  ∀ field ∈ fields, (∀ s, field.given s = (get s).isSome) ∨
    ∀ n d s s', field.read n d s = .ok s' → get s' = get s

section

variable {β : Type} {name : String} {given : σ → Bool} {item : Decoder β} {set : β → σ → σ}
  {hasDefault : Bool}

theorem sets_of_set {get : σ → Option β} (h : ∀ b s, get (set b s) = some b := by intros; rfl) :
    (⟨name, given, fun n d s => do return set (← item n d) s, hasDefault⟩ : Field σ).Sets
      item get := by
  intro n d s s' hread
  obtain ⟨b, hb, hread⟩ := bind_eq_ok_iff.1 hread
  cases hread
  exact ⟨b, hb, h b s⟩

theorem Apart.nil : Apart get [] := nofun

theorem Apart.own {read : Nat → Draft → σ → Except DecodeError σ} (h : Apart get fields) :
    Apart get (⟨name, fun s => (get s).isSome, read, hasDefault⟩ :: fields) :=
  List.forall_mem_cons.2 ⟨.inl fun _ => rfl, h⟩

theorem Apart.other (h : Apart get fields)
    (hset : ∀ b s, get (set b s) = get s := by intros; rfl) :
    Apart get (⟨name, given, fun n d s => do return set (← item n d) s, hasDefault⟩ :: fields) := by
  refine List.forall_mem_cons.2 ⟨.inr fun n d s s' hread => ?_, h⟩
  obtain ⟨b, -, hread⟩ := bind_eq_ok_iff.1 hread
  cases hread
  exact hset b s

end

/-- The last member with the name of a field is what this field of the record is read from: the
field may not stand there twice, and no other one changes it. -/
theorem get_of_lastMember {name : String} {item : Decoder α} {d : Draft}
    (hfind : fields.find? (·.name == name) = some field) (hsets : field.Sets item get)
    (hapart : Apart get fields) {members : List (Quotation × Draft)}
    (hlast : Draft.LastMember members name d) {flaw? : Option Flaw} {s s' : σ}
    (h : readMembers fields n members flaw? s = .ok s') :
    ∃ a, item n d = .ok a ∧ get s' = some a := by
  obtain ⟨before, key, behind, rfl, hkey, -⟩ := hlast
  induction before generalizing s with
  | nil =>
    obtain ⟨name', hname, ⟨hnone, -⟩ | ⟨found, s₁, hfound, -, hs₁, h⟩⟩ := readMembers_cons_eq_ok h
    · cases hkey.symm.trans hname
      cases hfind.symm.trans hnone
    · cases hkey.symm.trans hname
      cases hfind.symm.trans hfound
      obtain ⟨a, ha, hget⟩ := hsets n d s s₁ hs₁
      -- from here on the part is there, so no field touches it any more
      refine ⟨a, ha, readMembers_invariant (P := fun s => get s = some a) ?_ h hget⟩
      intro other hother d s s' hgiven hs hs'
      rcases hapart other hother with hown | hkeeps
      · simp [hown, hs] at hgiven
      · rw [hkeeps n d s s' hs', hs]
  | cons member before ih =>
    obtain ⟨_, -, ⟨-, h⟩ | ⟨_, _, -, -, -, h⟩⟩ := readMembers_cons_eq_ok h <;> exact ih h

theorem item_of_lastMember {name : String} {item : Decoder α} {d : Draft}
    (hfind : fields.find? (·.name == name) = some field) (hsets : field.Sets item get)
    (hapart : Apart get fields) {members : List (Quotation × Draft)}
    (hlast : Draft.LastMember members name d) {flaw? : Option Flaw} {s s' : σ}
    (h : readMembers fields n members flaw? s = .ok s') {a : α} (hget : get s' = some a) :
    item n d = .ok a := by
  obtain ⟨a', ha', hget'⟩ := get_of_lastMember hfind hsets hapart hlast h
  cases hget.symm.trans hget'
  exact ha'

end Field

end FeedQuery
