import FeedQuery.Proofs.Filter.Descent
import FeedQuery.Proofs.Json.Record
import FeedQuery.Query

/-!
How deep a filter can be that is read from a text. Each level of it takes two containers, the node
and the list below it. So its depth is at most half of the nesting of the text, rounded up, and half
of the nesting that the reader allows. Parts that are passed over count for the former only.
-/
namespace FeedQuery

namespace Draft

mutual

/-- How many arrays and objects of a text are nested in each other, in whatever part of it. -/
def nesting : Draft → Nat
  | .array items _ => nestingItems items + 1
  | .object members _ => nestingMembers members + 1
  | _ => 0

def nestingItems : List Draft → Nat
  | [] => 0
  | d :: items => max d.nesting (nestingItems items)

def nestingMembers : List (Quotation × Draft) → Nat
  | [] => 0
  | (_, d) :: members => max d.nesting (nestingMembers members)

end

theorem nesting_le_nestingItems {d : Draft} {items : List Draft} (h : d ∈ items) :
    d.nesting ≤ nestingItems items := by
  induction items with
  | nil => cases h
  | cons e items ih =>
    rw [nestingItems]
    rcases List.mem_cons.1 h with rfl | h
    · exact Nat.le_max_left _ _
    · exact Nat.le_trans (ih h) (Nat.le_max_right _ _)

theorem nestingMembers_eq (members : List (Quotation × Draft)) :
    nestingMembers members = nestingItems (members.map Prod.snd) := by
  induction members with
  | nil => rfl
  | cons member members ih => rw [nestingMembers, List.map_cons, nestingItems, ih]

theorem nesting_lt_of_mem_parts {d part : Draft} (h : part ∈ d.parts) :
    part.nesting < d.nesting := by
  cases d with
  | array items flaw? => exact Nat.lt_succ_of_le (nesting_le_nestingItems h)
  | object members flaw? =>
    have hle := nesting_le_nestingItems h
    rw [nesting, nestingMembers_eq]
    exact Nat.lt_succ_of_le hle
  | _ => cases h

/-- How many arrays and objects of a text are nested in each other. -/
def nestingOfText (text : String) : Nat := (ofText text).1.nesting

end Draft

theorem Decoder.eq_ok_of_run {α : Type} {decoder : Decoder α} {text : String} {a : α}
    (h : run decoder text = .ok a) : decoder nesting (Draft.ofText text).1 = .ok a := by
  obtain ⟨a', ha, h⟩ := bind_eq_ok_iff.1 h
  split at h
  · cases h
  · cases h
    exact ha

theorem Record.nesting_pos_of_decode {σ α : Type} {r : Record σ α} {n : Nat} {d : Draft} {a : α}
    (h : r.decode n d = .ok a) : 0 < n ∧ 0 < d.nesting := by
  cases n <;> cases d
  case succ.array | succ.object => exact ⟨Nat.succ_pos _, Nat.succ_pos _⟩
  case zero.array | zero.object => cases h
  all_goals exact absurd h (Draft.reject_ne_ok _ _ a)

namespace RawFilter

theorem depths_le_iff {n : Nat} {fs : List RawFilter} :
    depths fs ≤ n ↔ ∀ f ∈ fs, f.depth ≤ n := by
  induction fs with
  | nil => simp [depths]
  | cons f fs ih => rw [depths, Nat.max_le, ih, List.forall_mem_cons]

/-- What is read of a filter so far has no children that are too deep. -/
structure Partial.DeepBelow (b : Nat) (p : Partial) : Prop where
  and : ∀ fs, p.and? = some (some fs) → 2 * depths fs < b
  or : ∀ fs, p.or? = some (some fs) → 2 * depths fs < b

theorem Partial.DeepBelow.finish {b : Nat} {p : Partial} (h : p.DeepBelow b) (hb : 0 < b) :
    2 * p.finish.depth ≤ b + 1 := by
  have hlist : ∀ fs? : Option (Option (List RawFilter)),
      (∀ fs, fs? = some (some fs) → 2 * depths fs < b) → 2 * depths? fs?.join < b := by
    rintro (_ | _ | fs) hfs
    · exact hb
    · exact hb
    · exact hfs fs rfl
  have hand := hlist p.and? h.and
  have hor := hlist p.or? h.or
  rw [Partial.finish, depth]
  omega

theorem Partial.DeepBelow.read {children : Draft → Except DecodeError (Option (List RawFilter))}
    {n b : Nat} {field : Field Partial} (hfield : field ∈ (record children).fields) {d : Draft}
    (hchildren : ∀ fs, children d = .ok (some fs) → 2 * depths fs < b) (p p' : Partial)
    (hp : p.DeepBelow b) (h : field.read n d p = .ok p') : p'.DeepBelow b := by
  simp only [record, List.mem_cons, List.not_mem_nil, or_false] at hfield
  rcases hfield with rfl | rfl | rfl | rfl | rfl <;> obtain ⟨x?, hx, h⟩ := bind_eq_ok_iff.1 h <;>
    cases h
  case inl =>
    refine { hp with and := ?_ }
    rintro fs ⟨⟩
    exact hchildren fs hx
  case inr.inl =>
    refine { hp with or := ?_ }
    rintro fs ⟨⟩
    exact hchildren fs hx
  all_goals exact { hp with }

/-- A list of children takes one container, if each child takes what it is known to take. -/
theorem two_mul_depths_le_of_decodeChildren {n : Nat} {d : Draft} {fs : List RawFilter}
    (ih : ∀ m < n, ∀ d f, decode m d = .ok f → 2 * f.depth ≤ min m d.nesting + 1)
    (h : decodeChildren n d = .ok (some fs)) : 2 * depths fs ≤ min n d.nesting := by
  unfold decodeChildren at h
  split at h
  case h_3 m items flaw? =>
    obtain ⟨fs, hfs, h⟩ := map_eq_ok_iff.1 h
    cases h
    have hdepth : ∀ f ∈ fs, f.depth ≤ min (m + 1) (Draft.array items flaw?).nesting / 2 := by
      intro f hf
      obtain ⟨item, hitem, hdecode⟩ := Draft.exists_mem_of_readItems hfs f hf
      have hchild := ih m (Nat.lt_succ_self m) item f hdecode
      have hnesting := Draft.nesting_lt_of_mem_parts (d := .array items flaw?) hitem
      omega
    have hdepths := depths_le_iff.2 hdepth
    omega
  case h_4 => exact absurd h (Draft.reject_ne_ok _ _ _)
  all_goals cases h

/-- A filter of some depth is read from as many objects with as many arrays between them, nested in
each other. -/
theorem two_mul_depth_le_of_decode (n : Nat) (d : Draft) (f : RawFilter)
    (h : decode n d = .ok f) : 2 * f.depth ≤ min n d.nesting + 1 := by
  -- A child is read with two containers less, one for the node and one for the list it stands in.
  induction n using Nat.strongRecOn generalizing d f with
  | ind n ih =>
    cases n with
    | zero => exact absurd (Record.nesting_pos_of_decode h).1 (Nat.lt_irrefl 0)
    | succ n =>
      rw [decode] at h
      have hb : 0 < min (n + 1) d.nesting := Nat.lt_min.2 (Record.nesting_pos_of_decode h)
      have hread : ∀ field ∈ (record (decodeChildren n)).fields, ∀ part ∈ d.parts,
          ∀ p p' : Partial, p.DeepBelow (min (n + 1) d.nesting) → field.read n part p = .ok p' →
            p'.DeepBelow (min (n + 1) d.nesting) := by
        intro field hfield part hpart
        refine Partial.DeepBelow.read hfield fun fs hfs => ?_
        have hfs := two_mul_depths_le_of_decodeChildren
          (fun m hm => ih m (Nat.lt_succ_of_lt hm)) hfs
        have hnesting := Draft.nesting_lt_of_mem_parts hpart
        omega
      have hempty : (record (decodeChildren n)).empty.DeepBelow (min (n + 1) d.nesting) := by
        constructor <;> rintro fs ⟨⟩
      obtain ⟨p, hp, hfinish⟩ := Record.decode_invariant_of_parts hempty hread h
      cases hfinish
      exact hp.finish hb

theorem two_mul_depth_le_of_ofText {text : String} {f : RawFilter} (h : ofText text = .ok f) :
    2 * f.depth ≤ min Decoder.nesting (Draft.nestingOfText text) + 1 :=
  two_mul_depth_le_of_decode _ _ _ (Decoder.eq_ok_of_run h)

end RawFilter

/-- A filter that is read directly is no deeper than the wire form that is read first. -/
theorem Filter.two_mul_depth_le_of_ofText {text : String} {node : Filter}
    (h : ofText text = .ok node) :
    2 * node.depth ≤ min Decoder.nesting (Draft.nestingOfText text) + 1 := by
  obtain ⟨f, hf, h⟩ := bind_eq_ok_iff.1 h
  obtain ⟨node', hnode, h⟩ := bind_eq_ok_iff.1 h
  split at h
  · cases h
  · cases h
    rw [f.depth_of_check (mapError_eq_ok_iff.1 hnode)]
    exact RawFilter.two_mul_depth_le_of_decode _ _ _ (mapError_eq_ok_iff.1 hf)

namespace Query

/-- The filter of a query, where it is read already, is not too deep. -/
def Partial.DeepAtMost (b : Nat) (p : Partial) : Prop := ∀ f, p.filter? = some f → 2 * f.depth ≤ b

theorem Partial.DeepAtMost.read {n b : Nat} {field : Field Partial} (hfield : field ∈ record.fields)
    {d : Draft} (hfilter : ∀ f, RawFilter.decode n d = .ok f → 2 * f.depth ≤ b) (p p' : Partial)
    (hp : p.DeepAtMost b) (h : field.read n d p = .ok p') : p'.DeepAtMost b := by
  simp only [record, List.mem_cons, List.not_mem_nil, or_false] at hfield
  rcases hfield with rfl | rfl <;> obtain ⟨x, hx, h⟩ := bind_eq_ok_iff.1 h <;> cases h
  case inl =>
    rintro f ⟨⟩
    exact hfilter x hx
  case inr => exact hp

/-- A query takes one container more. -/
theorem two_mul_depth_le_of_decode {n : Nat} {d : Draft} {q : Query}
    (h : record.decode (n + 1) d = .ok q) : 2 * q.filter.depth ≤ min (n + 1) d.nesting := by
  have hempty : record.empty.DeepAtMost (min (n + 1) d.nesting) := by
    rintro f ⟨⟩
  have hread : ∀ field ∈ record.fields, ∀ part ∈ d.parts, ∀ p p' : Partial,
      p.DeepAtMost (min (n + 1) d.nesting) → field.read n part p = .ok p' →
        p'.DeepAtMost (min (n + 1) d.nesting) := by
    intro field hfield part hpart
    refine Partial.DeepAtMost.read hfield fun f hf => ?_
    have hfilter := RawFilter.two_mul_depth_le_of_decode _ _ _ hf
    have hnesting := Draft.nesting_lt_of_mem_parts hpart
    omega
  obtain ⟨p, hp, hfinish⟩ := Record.decode_invariant_of_parts hempty hread h
  obtain ⟨filter, hfilter, hfinish⟩ := bind_eq_ok_iff.1 hfinish
  cases hfinish
  exact hp filter (Record.require_eq_ok_iff.1 hfilter)

theorem two_mul_depth_le_of_ofText {text : String} {q : Query} (h : ofText text = .ok q) :
    2 * q.filter.depth ≤ min Decoder.nesting (Draft.nestingOfText text) :=
  two_mul_depth_le_of_decode (Decoder.eq_ok_of_run h)

end Query

end FeedQuery
