import FeedQuery.Proofs.Filter.Tower
import FeedQuery.Service

/-!
The nesting that the reader allows bounds the depth of the filters in texts, and with it the calls
of all passes over them.
-/
namespace FeedQuery

/-- A request for posts evaluates the predicate of its filter one call further down. -/
theorem Predicate.holdsWithin_ofPosts {p : Predicate} {n : Nat} (hp : p.depth ≤ n) (hn : 0 < n)
    (m : Message) : p.ofPosts.holdsWithin m (n + 1) = some (p.ofPosts.holds m) := by
  refine p.ofPosts.holdsWithin_of_depth_le m ?_
  rw [ofPosts, depth, depths, depths, depths, depth]
  omega

namespace Query

/-- A filter is at most half as deep as its text is nested, rounded up, and the filter of a query at
most half as deep. The reader opens up to 127 containers in each other, however the records in them
are spelled. So the depth of a filter is at most 64, and that of a query 63, and the check, the
compilation and the evaluation do with as many nested calls, and with one more for posts. Towers in
all spellings attain both bounds: they are refused only if they are nested deeper than the reader
goes, and each pass over them needs as many nested calls as they have nodes. -/
theorem nesting_bounds_descent :
    (∀ (text : String) (f : RawFilter), RawFilter.ofText text = .ok f →
      2 * f.depth ≤ Draft.nestingOfText text + 1 ∧ f.DescendsWithin 64) ∧
    (∀ (text : String) (node : Filter), Filter.ofText text = .ok node →
      2 * node.depth ≤ Draft.nestingOfText text + 1 ∧ node.depth ≤ 64) ∧
    (∀ (text : String) (q : Query), ofText text = .ok q →
      2 * q.filter.depth ≤ Draft.nestingOfText text ∧ q.filter.DescendsWithin 63 ∧
      ∀ p, q.filter.compile = .ok p → ∀ m, p.ofPosts.holdsWithin m 64 = some (p.ofPosts.holds m)) ∧
    (∀ leaf levels,
      Draft.nestingOfText (Tower.json leaf levels).compact = 2 * levels.length + 1 ∧
      RawFilter.ofText (Tower.json leaf levels).compact =
        (if levels.length < 64 then .ok (Tower.filter levels).raw else .error .tooDeep) ∧
      Filter.ofText (Tower.json leaf levels).compact =
        if levels.length < 64 then .ok (Tower.filter levels) else .error (.decode .tooDeep)) ∧
    (∀ spelling leaf levels,
      Draft.nestingOfText (Tower.queryJson spelling (Tower.json leaf levels)).compact =
        2 * levels.length + 2 ∧
      ofText (Tower.queryJson spelling (Tower.json leaf levels)).compact =
        if levels.length < 63 then .ok ⟨(Tower.filter levels).raw, none⟩ else .error .tooDeep) ∧
    ∀ levels, (Tower.filter levels).NeedsCalls (levels.length + 1) := by
  have hlimit : Decoder.nesting = 127 := rfl
  refine ⟨fun text f h => ?_, fun text node h => ?_, fun text q h => ?_, fun leaf levels => ?_,
    fun spelling leaf levels => ?_, Tower.needsCalls⟩
  · have hdepth := RawFilter.two_mul_depth_le_of_ofText h
    exact ⟨by omega, RawFilter.descendsWithin_of_depth_le (by omega)⟩
  · have hdepth := Filter.two_mul_depth_le_of_ofText h
    exact ⟨by omega, by omega⟩
  · have hdepth := two_mul_depth_le_of_ofText h
    refine ⟨by omega, RawFilter.descendsWithin_of_depth_le (by omega), fun p hp m => ?_⟩
    have hp := RawFilter.depth_of_compile hp
    exact Predicate.holdsWithin_ofPosts (by omega) (by omega) m
  · rw [Draft.nestingOfText_compact, Tower.depth_json]
    exact ⟨rfl, Tower.ofText_json leaf levels, Tower.filter_ofText_json leaf levels⟩
  · rw [Draft.nestingOfText_compact, Tower.depth_queryJson, Tower.depth_json]
    exact ⟨rfl, Tower.query_ofText_json spelling leaf levels⟩

/-- A query whose levels alternate between the combinators and the spellings has 63 nodes and is
nested as deep as a text can be with a leaf at the bottom. With one more level on top its filter is
still read by itself, but no longer in a query. -/
theorem nesting_bounds_descent_alternating :
    let levels : List Tower.Level := (List.replicate 31 [⟨.object, .and⟩, ⟨.array, .or⟩]).flatten
    let text := (Tower.queryJson .array (Tower.json .object levels)).compact
    let f := (Tower.filter levels).raw
    let levels' : List Tower.Level := ⟨.array, .and⟩ :: levels
    let text' := (Tower.json .object levels').compact
    let node := Tower.filter levels'
    (ofText text = .ok ⟨f, none⟩ ∧ f.DescendsWithin 63 ∧ f.checkWithin 62 .root = none ∧
      ∃ p, f.compile = .ok p ∧ ∀ m, p.ofPosts.holdsWithin m 64 = some (p.ofPosts.holds m)) ∧
    (RawFilter.ofText text' = .ok node.raw ∧ node.raw.DescendsWithin 64 ∧
      Filter.ofText text' = .ok node ∧ 2 * node.depth ≤ Draft.nestingOfText text' + 1 ∧
      node.depth = 64 ∧ Draft.nestingOfText text' = 127) ∧
    ofText (Tower.queryJson .object (Tower.json .object levels')).compact = .error .tooDeep := by
  intro levels text f levels' text' node
  have hlength : levels.length = 62 := rfl
  have hlength' : levels'.length = 63 := rfl
  obtain ⟨hfilter, hdirect, hquery, htower, hqueryTower, hneeds⟩ := nesting_bounds_descent
  have hread : ofText text = .ok ⟨f, none⟩ :=
    (hqueryTower .array .object levels).2.trans (if_pos (by omega))
  obtain ⟨-, hdescends, hposts⟩ := hquery text ⟨f, none⟩ hread
  have hcheck : f.checkWithin 62 .root = none := (hneeds levels).check 62 (by omega) .root
  obtain ⟨p, hp⟩ := (hneeds levels).compiles
  have hchecked := mapError_eq_ok_iff (f := FilterError.ofShape).2
    (Filter.check_raw .root (Tower.filter levels))
  have hcompile : f.compile = .ok p := (bind_of_eq_ok hchecked).trans hp
  obtain ⟨hnesting, hwire, hnode⟩ := htower .object levels'
  have hwire : RawFilter.ofText text' = .ok node.raw := hwire.trans (if_pos (by omega))
  have hnode : Filter.ofText text' = .ok node := hnode.trans (if_pos (by omega))
  have hdepth : node.depth = 64 := by rw [(hneeds levels').depth, hlength']
  have hrefused := (hqueryTower .object .object levels').2.trans (if_neg (by omega))
  rw [hlength'] at hnesting
  exact ⟨⟨hread, hdescends, hcheck, p, hcompile, hposts p hcompile⟩,
    ⟨hwire, (hfilter text' node.raw hwire).2, hnode, (hdirect text' node hnode).1, hdepth,
      hnesting⟩, hrefused⟩

end Query

end FeedQuery
