import FeedQuery.Proofs.Log.Chunks
import FeedQuery.Proofs.Store.Client

/-!
How many fetches a stream makes on a log that nothing is appended to. A page stream makes one for
each page that it is asked for; a record stream makes one when it has given all records of the
pages fetched before.
-/
namespace FeedQuery

namespace Store

variable {s : Store} {p : Predicate} {size : PageSize} {k : Nat}

@[simp] theorem log_recordFetches (s : Store) (p : Predicate) (size : PageSize)
    (cursors : List Cursor) : (s.recordFetches p size cursors).log = s.log := by
  induction cursors generalizing s with
  | nil => rfl
  | cons cursor cursors ih => rw [recordFetches_cons, ih, log_record]

@[simp] theorem failAt?_recordFetches (s : Store) (p : Predicate) (size : PageSize)
    (cursors : List Cursor) : (s.recordFetches p size cursors).failAt? = s.failAt? := by
  induction cursors generalizing s with
  | nil => rfl
  | cons cursor cursors ih => rw [recordFetches_cons, ih, failAt?_record]

theorem recordFetches_concat (s : Store) (p : Predicate) (size : PageSize) (cursors : List Cursor)
    (cursor : Cursor) : s.recordFetches p size (cursors ++ [cursor]) =
      (s.recordFetches p size cursors).record (.fetch p size cursor) := by
  induction cursors generalizing s with
  | nil => rfl
  | cons first cursors ih => exact ih (s.record (.fetch p size first))

/-- The store after the fetches of so many pages, or of all if there are not so many. -/
def fetched (s : Store) (p : Predicate) (size : PageSize) (k : Nat) : Store :=
  s.recordFetches p size (((s.log.pages p size).take k).map Prod.fst)

@[simp] theorem log_fetched (s : Store) (p : Predicate) (size : PageSize) (k : Nat) :
    (s.fetched p size k).log = s.log := log_recordFetches s p size _

@[simp] theorem failAt?_fetched (s : Store) (p : Predicate) (size : PageSize) (k : Nat) :
    (s.fetched p size k).failAt? = s.failAt? := failAt?_recordFetches s p size _

theorem fetches_fetched (s : Store) (p : Predicate) (size : PageSize) (k : Nat) :
    (s.fetched p size k).fetches = s.fetches + min k (s.log.pages p size).length := by
  rw [fetched, fetches_recordFetches, List.length_map, List.length_take]

theorem fetched_succ {q : Cursor × Page} (hq : (s.log.pages p size)[k]? = some q) :
    s.fetched p size (k + 1) = (s.fetched p size k).record (.fetch p size q.1) := by
  rw [fetched, List.take_add_one, hq, Option.toList_some, List.map_append, List.map_singleton,
    recordFetches_concat, fetched]

theorem fetched_of_le {j : Nat} (hk : (s.log.pages p size).length ≤ k) (hj : k ≤ j) :
    s.fetched p size j = s.fetched p size k := by
  rw [fetched, fetched, List.take_of_length_le hk, List.take_of_length_le (Nat.le_trans hk hj)]

end Store

namespace PageStream

variable {s : Store} {p : Predicate} {size : PageSize} {k : Nat}

/-- A stream that has given so many pages of a log, or all if there are not so many. -/
def past (l : Log) (p : Predicate) (size : PageSize) (k : Nat) : PageStream :=
  ⟨p, size, (l.pages p size)[k]?.map Prod.fst⟩

theorem past_zero (l : Log) (p : Predicate) (size : PageSize) : past l p size 0 = start p size := by
  rw [past, Log.pages, Log.cursor_of_pagesFrom p size l.start_position_le]
  rfl

theorem past_of_le {l : Log} {j : Nat} (hk : (l.pages p size).length ≤ k) (hj : k ≤ j) :
    past l p size j = past l p size k := by
  rw [past, past, List.getElem?_eq_none hk, List.getElem?_eq_none (Nat.le_trans hk hj)]

/-- A stream gives its pages one by one, with a fetch for each. -/
theorem next_past_of_lt (hs : s.failAt? = none) (hk : k < (s.log.pages p size).length) :
    (past s.log p size k).next (s.fetched p size k) =
      (.item (((s.log.query p).drop (k * size.val)).take size.val), past s.log p size (k + 1),
        s.fetched p size (k + 1)) := by
  obtain ⟨q, hq⟩ : ∃ q, (s.log.pages p size)[k]? = some q := ⟨_, List.getElem?_eq_getElem hk⟩
  obtain ⟨hf, hn⟩ := Log.fetch_of_getElem?_pagesFrom p size s.log.start_position_le k q hq
  have hc : (past s.log p size k).cursor? = some q.1 := by
    rw [past, hq, Option.map_some]
  have hne := (Store.spares_of_failAt?_eq_none ((s.failAt?_fetched p size k).trans hs) 1).ne
  rw [← s.log_fetched p size k] at hf
  rw [next_of_ok hc hne hf, Log.rows_of_getElem?_pages hq, hn, Store.fetched_succ hq]
  rfl

/-- A stream that has given all its pages makes no fetch. -/
theorem next_past_of_le (hk : (s.log.pages p size).length ≤ k) (store : Store) :
    (past s.log p size k).next store = (.done, past s.log p size k, store) := by
  refine next_of_none ?_ store
  rw [past, List.getElem?_eq_none hk]
  rfl

end PageStream

namespace Log

variable {l : Log} {p : Predicate} {size : PageSize} {j : Nat}

/-- How many pages the first records are on; what is behind the last one takes all pages. -/
def pagesFor (l : Log) (p : Predicate) (size : PageSize) (j : Nat) : Nat :=
  if j ≤ (l.query p).length then (j + size.val - 1) / size.val else (l.pages p size).length

theorem pagesFor_of_lt (h : (l.query p).length < j) :
    l.pagesFor p size j = (l.pages p size).length := by
  rw [pagesFor, if_neg (Nat.not_le.2 h)]

/-- The first records are on the least number of pages that have room for them. -/
theorem pagesFor_eq_iff {k : Nat} (hj : j ≤ (l.query p).length) :
    l.pagesFor p size j = k ↔ j ≤ k * size.val ∧ k * size.val < j + size.val := by
  have hpos := size.pos
  rw [pagesFor, if_pos hj, Nat.div_eq_iff hpos]
  omega

/-- No records need more pages than there are. -/
theorem pagesFor_le (l : Log) (p : Predicate) (size : PageSize) (j : Nat) :
    l.pagesFor p size j ≤ (l.pages p size).length := by
  rcases Nat.lt_or_ge (l.query p).length j with hlt | hle
  · exact Nat.le_of_eq (pagesFor_of_lt hlt)
  · cases hk : l.pagesFor p size j with
    | zero => exact Nat.zero_le _
    | succ k =>
      have hroom := ((pagesFor_eq_iff hle).1 hk).2
      rw [Nat.succ_mul] at hroom
      exact lt_length_pages (by omega)

theorem pagesFor_zero (l : Log) (p : Predicate) (size : PageSize) : l.pagesFor p size 0 = 0 := by
  have hpos := size.pos
  rw [pagesFor_eq_iff (Nat.zero_le _)]
  omega

end Log

namespace RecordStream

variable {s : Store} {p : Predicate} {size : PageSize} {j : Nat}

/-- A stream that has given so many records of a log, or all if there are not so many. It keeps
what is left of the pages that these are on. -/
def past (l : Log) (p : Predicate) (size : PageSize) (j : Nat) : RecordStream :=
  ⟨.past l p size (l.pagesFor p size j),
    ((l.query p).take (l.pagesFor p size j * size.val)).drop j⟩

theorem past_zero (l : Log) (p : Predicate) (size : PageSize) :
    past l p size 0 = start p size := by
  rw [past, Log.pagesFor_zero, PageStream.past_zero, Nat.zero_mul]
  rfl

theorem next_of_item {pages pages' : PageStream} {store store' : Store} {m : Message}
    {ms : List Message} (h : pages.next store = (.item (m :: ms), pages', store')) :
    next ⟨pages, []⟩ store = (.item m, ⟨pages', ms⟩, store') := by
  rw [next]
  dsimp only
  split <;> simp_all

theorem next_of_empty {pages pages' : PageStream} {store store' : Store}
    (h : pages.next store = (.item [], pages', store')) :
    next ⟨pages, []⟩ store = next ⟨pages', []⟩ store' := by
  rw [next]
  dsimp only
  split <;> simp_all

theorem next_of_done {pages pages' : PageStream} {store store' : Store}
    (h : pages.next store = (.done, pages', store')) :
    next ⟨pages, []⟩ store = (.done, ⟨pages', []⟩, store') := by
  rw [next]
  dsimp only
  split <;> simp_all

theorem drain_of_cons (pages : PageStream) (m : Message) (ms : List Message) (store : Store) :
    drain ⟨pages, m :: ms⟩ store =
      ((drain ⟨pages, ms⟩ store).1.map (m :: ·), (drain ⟨pages, ms⟩ store).2) := by
  simp only [drain]
  rcases pages.drain store with ⟨_ | rows, store'⟩ <;> rfl

/-- Taking all records is asking for one after the other. -/
theorem drain_eq (s : RecordStream) (store : Store) : s.drain store =
    match s.next store with
    | (.done, _, store) => (.ok [], store)
    | (.failed e, _, store) => (.error e, store)
    | (.item m, s, store) => ((s.drain store).1.map (m :: ·), (s.drain store).2) := by
  fun_induction next s store with
  | case1 s store m ms hbuffer =>
    rcases s with ⟨pages, buffer⟩
    cases hbuffer
    exact drain_of_cons pages m ms store
  | case2 s store hbuffer pages store' h =>
    simp [drain, hbuffer, PageStream.drain_eq, h, PageStream.drainAfter, Poll.outcome, Except.map]
  | case3 s store hbuffer e pages store' h =>
    simp [drain, PageStream.drain_of_failed h, Except.map]
  | case4 s store hbuffer m ms pages store' h =>
    simp only [drain, hbuffer, PageStream.drain_of_item h]
    rcases pages.drain store' with ⟨_ | rows, store''⟩ <;> rfl
  | case5 s store hbuffer pages store' h ih =>
    rw [← ih]
    simp only [drain, hbuffer, PageStream.drain_of_item h]
    rcases pages.drain store' with ⟨_ | rows, store''⟩ <;> rfl

/-- A stream gives the matches one by one. It fetches a page when it has given all records of those
before. -/
theorem next_past_of_getElem? (hs : s.failAt? = none) {m : Message}
    (hm : (s.log.query p)[j]? = some m) :
    (past s.log p size j).next (s.fetched p size (s.log.pagesFor p size j)) =
      (.item m, past s.log p size (j + 1),
        s.fetched p size (s.log.pagesFor p size (j + 1))) := by
  obtain ⟨hlt, -⟩ := List.getElem?_eq_some_iff.1 hm
  obtain ⟨k, hk⟩ : ∃ k, s.log.pagesFor p size j = k := ⟨_, rfl⟩
  obtain ⟨hle, hroom⟩ := (Log.pagesFor_eq_iff (Nat.le_of_lt hlt)).1 hk
  have hrest : ∀ i, j < i →
      ((s.log.query p).take i).drop j = m :: ((s.log.query p).take i).drop (j + 1) := by
    intro i hi
    have hget : ((s.log.query p).take i)[j]? = some m := by
      rw [List.getElem?_take_of_lt hi, hm]
    exact (List.drop_eq_getElem?_toList_append).trans (by rw [hget]; rfl)
  rcases Nat.lt_or_eq_of_le hle with hin | hend
  · -- some record of the page fetched last is left
    have hsucc : s.log.pagesFor p size (j + 1) = k :=
      (Log.pagesFor_eq_iff hlt).2 (by omega)
    rw [past, past, hk, hsucc, hrest _ hin, next_of_cons]
  · -- a page is fetched, and there is one since the match is behind those before
    have hsucc : s.log.pagesFor p size (j + 1) = k + 1 := by
      have hpos := size.pos
      rw [Log.pagesFor_eq_iff hlt, Nat.succ_mul]
      omega
    have hpage := PageStream.next_past_of_lt hs (Log.lt_length_pages (hend ▸ hlt))
    rw [← hend, List.take_drop, hend, ← Nat.succ_mul, ← hend,
      hrest _ (by rw [Nat.succ_mul]; omega)] at hpage
    have hempty : ((s.log.query p).take (k * size.val)).drop j = [] :=
      List.drop_eq_nil_of_le (Nat.le_trans (List.length_take_le _ _) (Nat.le_of_eq hend.symm))
    rw [past, past, hk, hsucc, hempty, next_of_item hpage]

/-- A stream that has given all matches is done, when it has passed over a last empty page. -/
theorem next_past_of_le (hs : s.failAt? = none) (hj : (s.log.query p).length ≤ j) :
    (past s.log p size j).next (s.fetched p size (s.log.pagesFor p size j)) =
      (.done, past s.log p size (j + 1),
        s.fetched p size (s.log.pagesFor p size (j + 1))) := by
  have hempty : ∀ i k, (s.log.query p).length ≤ i → ((s.log.query p).take k).drop i = [] :=
    fun i k hi => List.drop_eq_nil_of_le (Nat.le_trans (List.length_take_le' _ _) hi)
  rw [past, past, hempty j _ hj, hempty (j + 1) _ (Nat.le_succ_of_le hj),
    Log.pagesFor_of_lt (Nat.lt_succ_of_le hj)]
  rcases Nat.lt_or_eq_of_le hj with hlt | heq
  · rw [Log.pagesFor_of_lt hlt]
    exact next_of_done (PageStream.next_past_of_le (Nat.le_refl _) _)
  · obtain ⟨k, hk⟩ : ∃ k, s.log.pagesFor p size j = k := ⟨_, rfl⟩
    have hle := ((Log.pagesFor_eq_iff (Nat.le_of_eq heq.symm)).1 hk).1
    have hcount : (s.log.pages p size).length ≤ k + 1 := by
      have hpos := size.pos
      refine Log.length_pages_le ?_
      rw [heq, Nat.succ_mul]
      omega
    rw [hk]
    rcases Nat.lt_or_ge k (s.log.pages p size).length with hlt | hge
    · -- the log goes on behind the last match, and the page there is empty
      have hlast : (s.log.pages p size).length = k + 1 := by omega
      have hpage := PageStream.next_past_of_lt hs hlt
      rw [List.drop_eq_nil_of_le (heq ▸ hle), List.take_nil] at hpage
      rw [hlast, next_of_empty hpage]
      exact next_of_done (PageStream.next_past_of_le (Nat.le_of_eq hlast) _)
    · rw [← PageStream.past_of_le (Nat.le_refl _) hge, ← Store.fetched_of_le (Nat.le_refl _) hge]
      exact next_of_done (PageStream.next_past_of_le hge _)

end RecordStream

namespace OpenStream

variable {s : Store}

theorem next_pages_past (hs : s.failAt? = none) (p : Predicate) (size : PageSize) (k : Nat) :
    (pages (.past s.log p size k)).next (s.fetched p size k) =
      ((if k < (s.log.pages p size).length then
          .nextPage (((s.log.query p).drop (k * size.val)).take size.val) else .done,
        .pages (.past s.log p size (k + 1))), s.fetched p size (k + 1)) := by
  split
  · rename_i hlt
    rw [next, PageStream.next_past_of_lt hs hlt]
    rfl
  · rename_i hge
    have hle := Nat.le_of_not_lt hge
    rw [next, PageStream.next_past_of_le hle, PageStream.past_of_le hle (Nat.le_succ k),
      Store.fetched_of_le hle (Nat.le_succ k)]
    rfl

theorem next_records_past (hs : s.failAt? = none) (p : Predicate) (size : PageSize) (j : Nat) :
    (records (.past s.log p size j)).next (s.fetched p size (s.log.pagesFor p size j)) =
      (((s.log.query p)[j]?.elim .done .nextRecord, .records (.past s.log p size (j + 1))),
        s.fetched p size (s.log.pagesFor p size (j + 1))) := by
  cases hm : (s.log.query p)[j]? with
  | some m =>
    rw [next, RecordStream.next_past_of_getElem? hs hm]
    rfl
  | none =>
    rw [next, RecordStream.next_past_of_le hs (List.getElem?_eq_none_iff.1 hm)]
    rfl

end OpenStream

namespace Client

/-- What a client is told that polls one stream again and again. -/
theorem after_replicate_poll {c : Client} {i : Nat} {stream : Nat → OpenStream}
    {store : Nat → Store} {reply : Nat → Reply}
    (hstep : ∀ k, (stream k).next (store k) = ((reply k, stream (k + 1)), store (k + 1)))
    (hstream : c.streams[i]? = some (stream 0)) (hstore : c.store = store 0) (k : Nat) :
    c.after (List.replicate k (.poll i)) = ⟨store k, c.streams.set i (stream k)⟩ ∧
      ((c.after (List.replicate k (.poll i))).perform (.poll i)).1 = reply k := by
  have hi := (List.getElem?_eq_some_iff.1 hstream).1
  have hpoll : ∀ k, (⟨store k, c.streams.set i (stream k)⟩ : Client).perform (.poll i) =
      (reply k, ⟨store (k + 1), c.streams.set i (stream (k + 1))⟩) := by
    intro k
    rw [perform_poll_of_some (List.getElem?_set_self hi), hstep k, List.set_set]
  have hafter : c.after (List.replicate k (.poll i)) =
      ⟨store k, c.streams.set i (stream k)⟩ := by
    induction k with
    | zero =>
      obtain ⟨_, hget⟩ := List.getElem?_eq_some_iff.1 hstream
      rw [← hget, List.set_getElem_self, ← hstore]
      rfl
    | succ k ih =>
      have hlast : c.after (List.replicate (k + 1) (.poll i)) =
          ((c.after (List.replicate k (.poll i))).perform (.poll i)).2 := by
        rw [List.replicate_succ', after, List.foldl_append]
        rfl
      rw [hlast, ih, hpoll]
  rw [hafter, hpoll]
  exact ⟨rfl, rfl⟩

/-- Streams on a log that nothing is appended to. A page stream makes a fetch for each page that it
is asked for, and none before or after; all pages but the last one are full. A record stream makes a
fetch for the first record of each page, and goes on to the last page only for its end. -/
theorem streams_fetch_when_polled (l : Log) (accesses : List Access) (streams : List OpenStream)
    (p : Predicate) (size : PageSize) :
    let c : Client := ⟨⟨l, none, accesses⟩, streams⟩
    let rows := l.query p
    let n := size.val
    let count := rows.length / n + 1 -
      if 0 < rows.length ∧ n ∣ rows.length ∧ Log.EndsInMatch p l.messages then 1 else 0
    let poll : Operation := .poll streams.length
    let pages k := (c.perform (.openPages p size)).2.after (List.replicate k poll)
    let records j := (c.perform (.openRecords p size)).2.after (List.replicate j poll)
    (∀ k, (pages k).store.fetches = c.store.fetches + min k count ∧
      ((pages k).perform poll).1 =
        if k < count then .nextPage ((rows.drop (k * n)).take n) else .done) ∧
    (∀ k < count, ((rows.drop (k * n)).take n).length =
      if k + 1 < count then n else rows.length - n * (count - 1)) ∧
    ∀ j, (records j).store.fetches =
        c.store.fetches + (if j ≤ rows.length then (j + n - 1) / n else count) ∧
      ((records j).perform poll).1 = rows[j]?.elim .done .nextRecord := by
  intro c rows n count poll pages records
  have hcount : (l.pages p size).length = count := Log.length_pages l p size
  have hopen : ∀ stream, (c.streams ++ [stream])[streams.length]? = some stream :=
    fun stream => List.getElem?_concat_length
  refine ⟨?_, ?_, ?_⟩
  · intro k
    obtain ⟨hafter, hreply⟩ := after_replicate_poll (c := (c.perform (.openPages p size)).2)
      (OpenStream.next_pages_past (s := c.store) rfl p size)
      ((hopen _).trans (by rw [PageStream.past_zero])) rfl k
    rw [← hcount]
    refine ⟨?_, hreply⟩
    rw [show pages k = _ from hafter, Store.fetches_fetched]
  · intro k hk
    rw [← hcount] at hk ⊢
    exact Log.length_rows_of_lt hk
  · intro j
    obtain ⟨hafter, hreply⟩ := after_replicate_poll (c := (c.perform (.openRecords p size)).2)
      (OpenStream.next_records_past (s := c.store) rfl p size)
      ((hopen _).trans (by rw [RecordStream.past_zero])) (by rw [Log.pagesFor_zero]; rfl) j
    rw [← hcount]
    refine ⟨?_, hreply⟩
    rw [show records j = _ from hafter, Store.fetches_fetched,
      Nat.min_eq_left (l.pagesFor_le p size j)]
    rfl

/-- Two matches, the last one at the end of the log, one a page: both fetches are made for them. -/
theorem streams_fetch_when_polled_regular :
    let m := Sample.regularMessage
    let p : Predicate := .condition (.text .author Sample.bob)
    let c : Client := (⟨⟨⟨[m 1, m 2, m 3]⟩, none, []⟩, []⟩ : Client).after
      [.openPages p ⟨1, by decide⟩, .poll 0, .poll 0]
    c.store.fetches = 2 ∧ (c.perform (.poll 0)).1 = .done := by
  intro m p c
  obtain ⟨hpages, -, -⟩ :=
    streams_fetch_when_polled ⟨[m 1, m 2, m 3]⟩ [] [] p ⟨1, by decide⟩
  obtain ⟨hfetches, hreply⟩ := hpages 2
  have hrows : (⟨[m 1, m 2, m 3]⟩ : Log).query p = [m 1, m 3] := rfl
  have hended : Log.EndsInMatch p [m 1, m 2, m 3] := by
    rintro _ ⟨⟩
    rfl
  rw [hrows] at hfetches hreply
  exact ⟨hfetches.trans (by simp [hended, Store.fetches]), hreply.trans (by simp [hended])⟩

end Client

end FeedQuery
