import ContextDesk.Lib.Keyset
import ContextDesk.LogAnalysis.QueryFilter

/-!
# Paging through the matching events

The matching events of a table, in the order of the pages, are a list without repetitions
(`Matched`). A page is a window of that list: `forward_page` and `reverse_page` say that the window
after a cursor, or before one, is contiguous with the row of the cursor, and `PageAt` which cursors
a window advertises. `PageReached` is a page that some sequence of next and previous requests
reaches from the first page, and `followNext` the pages that next requests alone give.
-/

namespace ContextDesk.LogAnalysis

open Lib List
open Lib.Keyset (Ascending)

/-- A stored table: the rows fit their columns, decode, and have different sequences. -/
structure EventTable where
  rows : List EventRow
  inColumns : ∀ r ∈ rows, r.InColumns
  decodes : ∀ r ∈ rows, ∃ e, mapEvent r = .ok e
  distinct : Distinct EventRow.seq rows

/-- Time, then sequence; or the sequence alone. -/
def rowKey (sortByTime : Bool) (r : EventRow) : Int ×ₗ Int :=
  toLex (if sortByTime then r.ts else 0, r.seq)

def eventKey (sortByTime : Bool) (e : ExplorerEvent) : Int ×ₗ Int :=
  toLex (if sortByTime then e.ts else 0, (e.seq.toNat : Int))

/-- The events that the conditions select, each once, in the order of the pages. -/
structure Matched (lc : Lowercase) (sortByTime : Bool) (clauses : List Clause) (t : EventTable)
    (events : List ExplorerEvent) : Prop where
  ascending : Ascending (eventKey sortByTime) events
  mem : ∀ e, e ∈ events ↔ ∃ r ∈ t.rows, satisfies lc clauses r = true ∧ mapEvent r = .ok e

def cursorAt (sortByTime : Bool) (e : Option ExplorerEvent) : Option UInt64 × Option Int :=
  (e.map ExplorerEvent.seq, if sortByTime then e.map ExplorerEvent.ts else none)

def firstRequest (f : EventQuery) : EventQuery :=
  { f with afterSeq := none, afterTs := none, beforeSeq := none, beforeTs := none }

/-- `next_cursor` and `next_ts` passed as `after_seq` and `after_ts`. -/
def nextRequest (f : EventQuery) (page : EventRowsPage) : EventQuery :=
  { f with
    afterSeq := page.nextCursor, afterTs := page.nextTs, beforeSeq := none, beforeTs := none }

/-- `prev_cursor` and `prev_ts` passed as `before_seq` and `before_ts`. -/
def prevRequest (f : EventQuery) (page : EventRowsPage) : EventQuery :=
  { f with
    afterSeq := none, afterTs := none, beforeSeq := page.prevCursor, beforeTs := page.prevTs }

variable {lc : Lowercase} {f : EventQuery} {sortByTime : Bool} {clauses : List Clause}
  {t : EventTable}

/-! ## The rows of one side -/

theorem rowLe_iff {a b : EventRow} :
    rowLe sortByTime a b = true ↔ rowKey sortByTime a ≤ rowKey sortByTime b := by
  unfold rowLe rowKey
  rw [Prod.Lex.toLex_le_toLex]
  cases sortByTime <;> simp

theorem rowKey_nodup (t : EventTable) (p : EventRow → Bool) :
    ((t.rows.filter p).map (rowKey sortByTime)).Nodup := by
  have hseq : ((t.rows.filter p).map EventRow.seq).Nodup :=
    t.distinct.sublist filter_sublist
  refine List.Nodup.of_map (fun k => (ofLex k).2) ?_
  rw [map_map]
  exact hseq

/-- The matching rows in the order of the pages. -/
def sortedRows (lc : Lowercase) (sortByTime : Bool) (clauses : List Clause) (t : EventTable) :
    List EventRow :=
  (t.rows.filter (satisfies lc clauses)).insertionSort fun a b => rowLe sortByTime a b = true

variable {r : EventRow}

theorem mem_sortedRows :
    r ∈ sortedRows lc sortByTime clauses t ↔ r ∈ t.rows ∧ satisfies lc clauses r = true := by
  unfold sortedRows
  rw [mem_insertionSort, mem_filter]

theorem sortedRows_ascending : Ascending (rowKey sortByTime) (sortedRows lc sortByTime clauses t) :=
  Keyset.ascending_insertionSort (fun _ _ => rowLe_iff) (rowKey_nodup t _)

variable {cs : List Clause}

theorem satisfies_append :
    satisfies lc (clauses ++ cs) r = (satisfies lc clauses r && satisfies lc cs r) := by
  simp [satisfies, Sql.allTrue]

theorem selectRows_eq {descending : Bool} {limit : Nat} :
    selectRows lc (clauses ++ cs) sortByTime descending limit t.rows =
      (if descending then ((sortedRows lc sortByTime clauses t).filter (satisfies lc cs)).reverse
        else (sortedRows lc sortByTime clauses t).filter (satisfies lc cs)).take limit := by
  have hfilter : t.rows.filter (satisfies lc (clauses ++ cs)) =
      (t.rows.filter (satisfies lc clauses)).filter (satisfies lc cs) := by
    rw [filter_filter]
    exact filter_congr fun r _ => by rw [satisfies_append, Bool.and_comm]
  have hasc : (t.rows.filter (satisfies lc (clauses ++ cs))).insertionSort
      (fun a b => rowLe sortByTime a b = true) =
      (sortedRows lc sortByTime clauses t).filter (satisfies lc cs) := by
    rw [hfilter]
    exact Keyset.sort_select (fun _ _ => rowLe_iff) (rowKey_nodup t _)
  unfold selectRows
  cases descending with
  | false =>
    simp only [Bool.false_eq_true, if_false]
    rw [hasc]
  | true =>
    simp only [if_true]
    rw [← hasc]
    congr 1
    exact Keyset.reverse_insertionSort (fun _ _ => rowLe_iff) (fun _ _ => Iff.rfl)
      (rowKey_nodup t _)

/-! ## Decoded rows -/

/-- The rows and the events decoded from them. -/
abbrev DecodedAs (rows : List EventRow) (events : List ExplorerEvent) : Prop :=
  Forall₂ (fun r e => mapEvent r = .ok e) rows events

variable {rows : List EventRow}

theorem exists_decodedAs (h : ∀ r ∈ rows, r ∈ t.rows) : ∃ events, DecodedAs rows events := by
  induction rows with
  | nil => exact ⟨[], .nil⟩
  | cons r rows ih =>
    obtain ⟨e, he⟩ := t.decodes r (h r mem_cons_self)
    obtain ⟨events, hevents⟩ := ih fun r' hr' => h r' (mem_cons_of_mem _ hr')
    exact ⟨e :: events, .cons he hevents⟩

variable {e : ExplorerEvent}

theorem eventKey_eq (hr : r ∈ t.rows) (he : mapEvent r = .ok e) :
    eventKey sortByTime e = rowKey sortByTime r := by
  have d := decoded_of_mapEvent (t.inColumns r hr) he
  unfold eventKey rowKey
  rw [d.ts, d.seq]

theorem DecodedAs.ascending {events : List ExplorerEvent} (h : DecodedAs rows events)
    (hrows : ∀ r ∈ rows, r ∈ t.rows) (hasc : Ascending (rowKey sortByTime) rows) :
    Ascending (eventKey sortByTime) events := by
  induction h with
  | nil => exact .nil
  | @cons r e rows events he hrest ih =>
    obtain ⟨hhead, htail⟩ := pairwise_cons.mp hasc
    refine pairwise_cons.mpr
      ⟨fun e' he' => ?_, ih (fun r' hr' => hrows r' (mem_cons_of_mem _ hr')) htail⟩
    obtain ⟨r', hr', hdec⟩ := exists_mem_left hrest he'
    rw [eventKey_eq (hrows r mem_cons_self) he,
      eventKey_eq (hrows r' (mem_cons_of_mem _ hr')) hdec]
    exact hhead r' hr'

/-- The matching events of a table. -/
theorem exists_matched (lc : Lowercase) (sortByTime : Bool) (clauses : List Clause)
    (t : EventTable) : ∃ events, DecodedAs (sortedRows lc sortByTime clauses t) events ∧
      Matched lc sortByTime clauses t events := by
  have hrows : ∀ r ∈ sortedRows lc sortByTime clauses t, r ∈ t.rows :=
    fun r hr => (mem_sortedRows.mp hr).1
  obtain ⟨events, h⟩ := exists_decodedAs hrows
  refine ⟨events, h, h.ascending hrows sortedRows_ascending, fun e => ⟨fun he => ?_, ?_⟩⟩
  · obtain ⟨r, hr, hdec⟩ := exists_mem_left h he
    exact ⟨r, (mem_sortedRows.mp hr).1, (mem_sortedRows.mp hr).2, hdec⟩
  · rintro ⟨r, hr, hsat, hdec⟩
    obtain ⟨e', he', hdec'⟩ := exists_mem_right h (mem_sortedRows.mpr ⟨hr, hsat⟩)
    obtain rfl : e = e' := Except.ok.inj (hdec.symm.trans hdec')
    exact he'

/-! ## Cursors -/

theorem asI64_decoded (hr : r ∈ t.rows) (he : mapEvent r = .ok e) : asI64 e.seq = r.seq := by
  have d := decoded_of_mapEvent (t.inColumns r hr) he
  exact ((asI64_eq_iff d.seq_nonneg (t.inColumns r hr).seq_le).mpr d.seq.symm).symm

variable {q : EventQuery}

theorem cursorClauses_after {r₀ : EventRow} (hr : r₀ ∈ t.rows) (he : mapEvent r₀ = .ok e)
    (hafter : (q.afterSeq, q.afterTs) = cursorAt q.sortByTime (some e))
    (hbefore : q.beforeSeq = none) :
    ∃ cs, cursorClauses q = .ok cs ∧
      ∀ r, satisfies lc cs r = decide (rowKey q.sortByTime r₀ < rowKey q.sortByTime r) := by
  have d := decoded_of_mapEvent (t.inColumns r₀ hr) he
  have hseq := asI64_decoded hr he
  simp only [cursorAt, Prod.mk.injEq, Option.map_some] at hafter
  obtain ⟨hs, ht⟩ := hafter
  unfold cursorClauses rowKey
  cases hsort : q.sortByTime with
  | false =>
    rw [hsort] at ht
    refine ⟨[.seqAfter r₀.seq], by simp [hs, hbefore, hseq, pure_ok], fun r => ?_⟩
    simp [satisfies, Sql.allTrue, Clause.truth, Prod.Lex.toLex_lt_toLex]
  | true =>
    rw [hsort] at ht
    refine ⟨[.afterKey r₀.ts r₀.seq], ?_, fun r => ?_⟩
    · simp [hs, ht, hbefore, hseq, d.ts, ensure, bind, Except.bind, pure, Except.pure]
    · simp only [satisfies, Sql.allTrue, Clause.truth, Prod.Lex.toLex_lt_toLex, map_cons,
        map_nil, all_cons, all_nil, Bool.and_true]
      simp [eq_comm]

theorem cursorClauses_before {r₀ : EventRow} (hr : r₀ ∈ t.rows) (he : mapEvent r₀ = .ok e)
    (hbefore : (q.beforeSeq, q.beforeTs) = cursorAt q.sortByTime (some e))
    (hafter : q.afterSeq = none) :
    ∃ cs, cursorClauses q = .ok cs ∧
      ∀ r, satisfies lc cs r = decide (rowKey q.sortByTime r < rowKey q.sortByTime r₀) := by
  have d := decoded_of_mapEvent (t.inColumns r₀ hr) he
  have hseq := asI64_decoded hr he
  simp only [cursorAt, Prod.mk.injEq, Option.map_some] at hbefore
  obtain ⟨hs, ht⟩ := hbefore
  unfold cursorClauses rowKey
  cases hsort : q.sortByTime with
  | false =>
    rw [hsort] at ht
    refine ⟨[.seqBefore r₀.seq], by simp [hs, hafter, hseq, pure_ok], fun r => ?_⟩
    simp [satisfies, Sql.allTrue, Clause.truth, Prod.Lex.toLex_lt_toLex]
  | true =>
    rw [hsort] at ht
    refine ⟨[.beforeKey r₀.ts r₀.seq], ?_, fun r => ?_⟩
    · simp [hs, ht, hafter, hseq, d.ts, ensure, bind, Except.bind, pure, Except.pure]
    · simp only [satisfies, Sql.allTrue, Clause.truth, Prod.Lex.toLex_lt_toLex, map_cons,
        map_nil, all_cons, all_nil, Bool.and_true]
      simp

theorem cursorClauses_none (hafter : q.afterSeq = none) (hbefore : q.beforeSeq = none) :
    cursorClauses q = .ok [] := by
  unfold cursorClauses
  cases q.sortByTime <;> simp [hafter, hbefore, ensure, bind, Except.bind, pure, Except.pure]

/-! ## One page -/

/-- A page that shows `window`, with `before` on its older side and `after` on its newer side: it
advertises a cursor on a side exactly when there are events there. -/
structure PageAt (f : EventQuery) (before window after : List ExplorerEvent)
    (page : EventRowsPage) : Prop where
  events : page.events = window
  next : (page.nextCursor, page.nextTs) =
    cursorAt f.sortByTime (if after = [] then none else window.getLast?)
  prev : (page.prevCursor, page.prevTs) =
    cursorAt f.sortByTime (if before = [] then none else window.head?)
  bounded : window.length ≤ pageLimit f
  nonempty : window = [] → before = [] ∧ after = []

theorem pageLimit_pos : 1 ≤ pageLimit f := by
  unfold pageLimit defaultEventPage maxEventPage
  split <;> omega

theorem pageLimit_le : pageLimit f ≤ maxEventPage := by
  unfold pageLimit defaultEventPage maxEventPage
  split <;> omega

variable {before after : List ExplorerEvent}

/-- The page of a forward fetch. -/
theorem pageOfFetched_forward {quality : TimeQuality} (hq : q.beforeSeq = none)
    (hb : q.afterSeq.isSome = true ↔ before ≠ []) (ha : before ≠ [] → after ≠ []) :
    PageAt q before (after.take (pageLimit q)) (after.drop (pageLimit q))
      (pageOfFetched q quality (after.take (pageLimit q + 1))) := by
  have hpos := pageLimit_pos (f := q)
  have hreverse : isReversePage q = false := by simp [isReversePage, hq]
  have hmore : pageLimit q < (after.take (pageLimit q + 1)).length ↔
      after.drop (pageLimit q) ≠ [] := by
    rw [Keyset.lookahead_more, ne_eq, drop_eq_nil_iff, not_le]
  have hempty : after.take (pageLimit q) = [] ↔ after = [] := by
    rw [take_eq_nil_iff]
    exact or_iff_right (by omega)
  have holder : (q.afterSeq.isSome && !(after.take (pageLimit q)).isEmpty) = true ↔
      before ≠ [] := by
    rw [Bool.and_eq_true, hb, Bool.not_eq_true', isEmpty_eq_false_iff]
    simp only [ne_eq, hempty]
    exact ⟨And.left, fun h => ⟨h, ha h⟩⟩
  simp only [pageOfFetched, hreverse, Bool.false_eq_true, if_false, gt_iff_lt,
    Keyset.take_lookahead]
  refine ⟨rfl, ?_, ?_, length_take_le _ _, fun h => ?_⟩
  · simp only [hmore, decide_eq_true_eq, Bool.and_eq_true, cursorAt]
    by_cases hnil : after.drop (pageLimit q) = []
    · simp [hnil]
    · simp [hnil]
  · simp only [holder, Bool.and_eq_true, cursorAt]
    by_cases hnil : before = []
    · simp [hnil]
    · simp [hnil]
  · have hnil := hempty.mp h
    refine ⟨?_, by simp [hnil]⟩
    by_contra hne
    exact ha hne hnil

/-- The page of a reverse fetch. -/
theorem pageOfFetched_reverse {quality : TimeQuality} (hq : isReversePage q = true)
    (hb : before ≠ []) (ha : after ≠ []) :
    PageAt q (before.take (before.length - pageLimit q))
      (before.drop (before.length - pageLimit q)) after
      (pageOfFetched q quality (before.reverse.take (pageLimit q + 1))) := by
  have hpos := pageLimit_pos (f := q)
  have hlen := length_pos_iff.mpr hb
  have hsome : q.beforeSeq.isSome = true := by
    unfold isReversePage at hq
    exact (Bool.and_eq_true_iff.mp hq).1
  have hmore : pageLimit q < (before.reverse.take (pageLimit q + 1)).length ↔
      before.take (before.length - pageLimit q) ≠ [] := by
    rw [Keyset.lookahead_more, length_reverse, ne_eq, take_eq_nil_iff, or_iff_left hb]
    omega
  have hwindow : before.drop (before.length - pageLimit q) ≠ [] := by
    rw [ne_eq, drop_eq_nil_iff]
    omega
  simp only [pageOfFetched, hq, if_true, gt_iff_lt, Keyset.reverse_lookahead]
  refine ⟨rfl, ?_, ?_, ?_, fun h => absurd h hwindow⟩
  · simp [hsome, hwindow, cursorAt, ha]
  · simp only [hmore, decide_eq_true_eq, Bool.and_eq_true, cursorAt]
    by_cases hnil : before.take (before.length - pageLimit q) = []
    · simp [hnil]
    · simp [hnil]
  · rw [length_drop]
    omega

theorem queryEventRows_eq {extra : Option String} {quality : TimeQuality}
    {side : List ExplorerEvent} (hw : buildWhereWithAdditionalKeyword lc q extra = .ok clauses)
    (hcs : cursorClauses q = .ok cs)
    (hside : DecodedAs ((sortedRows lc q.sortByTime clauses t).filter (satisfies lc cs)) side) :
    queryEventRows lc q extra quality t.rows =
      .ok (pageOfFetched q quality
        ((if isReversePage q then side.reverse else side).take (pageLimit q + 1))) := by
  have hdec : collect mapEvent (selectRows lc (clauses ++ cs) q.sortByTime (isReversePage q)
      (pageLimit q + 1) t.rows) =
      .ok ((if isReversePage q then side.reverse else side).take (pageLimit q + 1)) := by
    rw [selectRows_eq, collect_ok]
    refine forall₂_take _ ?_
    split
    · exact forall₂_reverse_iff.mpr hside
    · exact hside
  simp only [queryEventRows, bind_ok, pure_ok]
  exact ⟨clauses, hw, cs, hcs, _, hdec, rfl⟩

/-- The matching events in two parts, with the rows of each. -/
theorem DecodedAs.split (h : DecodedAs rows (before ++ after)) :
    ∃ rows₁ rows₂, rows = rows₁ ++ rows₂ ∧ DecodedAs rows₁ before ∧ DecodedAs rows₂ after :=
  ⟨rows.take before.length, rows.drop before.length, (take_append_drop _ _).symm,
    forall₂_take_append _ _ _ h, forall₂_drop_append _ _ _ h⟩

/-- The rows behind the cursor at the last event of `before`. -/
theorem forward_side (hm : DecodedAs (sortedRows lc q.sortByTime clauses t) (before ++ after))
    (hq : q.beforeSeq = none)
    (hcursor : (q.afterSeq, q.afterTs) = cursorAt q.sortByTime before.getLast?) :
    ∃ cs, cursorClauses q = .ok cs ∧
      DecodedAs ((sortedRows lc q.sortByTime clauses t).filter (satisfies lc cs)) after := by
  have hafter : q.afterSeq = before.getLast?.map ExplorerEvent.seq := congrArg Prod.fst hcursor
  obtain ⟨rows₁, rows₂, hrows, h₁, h₂⟩ := hm.split
  rcases eq_nil_or_concat before with rfl | ⟨before', e, rfl⟩
  · -- the first page has no cursor
    obtain rfl := forall₂_nil_right_iff.mp h₁
    refine ⟨[], cursorClauses_none hafter hq, ?_⟩
    have hall : rows₂.filter (satisfies lc []) = rows₂ := filter_eq_self.mpr fun _ _ => rfl
    rw [hrows, nil_append, hall]
    exact h₂
  · rw [concat_eq_append] at h₁ hcursor
    obtain ⟨rows', rows'', rfl, -, h''⟩ := h₁.split
    obtain ⟨r₀, _, he, hnil, rfl⟩ := forall₂_cons_right_iff.mp h''
    obtain rfl := forall₂_nil_right_iff.mp hnil
    have hasc : Ascending (rowKey q.sortByTime) (sortedRows lc q.sortByTime clauses t) :=
      sortedRows_ascending
    have hmem : r₀ ∈ sortedRows lc q.sortByTime clauses t := by
      rw [hrows]
      simp
    have hr₀ := (mem_sortedRows.mp hmem).1
    rw [getLast?_concat] at hcursor
    obtain ⟨cs, hcs, hsat⟩ := cursorClauses_after hr₀ he hcursor hq
    refine ⟨cs, hcs, ?_⟩
    rw [hrows] at hasc ⊢
    rw [filter_congr fun r _ => hsat r, hasc.filter_after]
    exact h₂

/-- The matching events after the last one of `before`, which is the cursor. -/
theorem forward_page {extra : Option String} (quality : TimeQuality)
    (hw : buildWhereWithAdditionalKeyword lc q extra = .ok clauses)
    (hm : DecodedAs (sortedRows lc q.sortByTime clauses t) (before ++ after))
    (hq : q.beforeSeq = none)
    (hcursor : (q.afterSeq, q.afterTs) = cursorAt q.sortByTime before.getLast?)
    (hne : before ≠ [] → after ≠ []) :
    ∃ page, queryEventRows lc q extra quality t.rows = .ok page ∧
      PageAt q before (after.take (pageLimit q)) (after.drop (pageLimit q)) page := by
  have hreverse : isReversePage q = false := by simp [isReversePage, hq]
  have hafter : q.afterSeq = before.getLast?.map ExplorerEvent.seq := congrArg Prod.fst hcursor
  have hsome : q.afterSeq.isSome = true ↔ before ≠ [] := by
    rw [hafter]
    cases before <;> simp
  obtain ⟨cs, hcs, hside⟩ := forward_side hm hq hcursor
  refine ⟨_, queryEventRows_eq hw hcs hside, ?_⟩
  rw [hreverse]
  exact pageOfFetched_forward hq hsome hne

/-- A forward page shows the next events, also when none are left. -/
theorem forward_events {extra : Option String} (quality : TimeQuality)
    (hw : buildWhereWithAdditionalKeyword lc q extra = .ok clauses)
    (hm : DecodedAs (sortedRows lc q.sortByTime clauses t) (before ++ after))
    (hq : q.beforeSeq = none)
    (hcursor : (q.afterSeq, q.afterTs) = cursorAt q.sortByTime before.getLast?) :
    ∃ page, queryEventRows lc q extra quality t.rows = .ok page ∧
      page.events = after.take (pageLimit q) := by
  have hreverse : isReversePage q = false := by simp [isReversePage, hq]
  obtain ⟨cs, hcs, hside⟩ := forward_side hm hq hcursor
  refine ⟨_, queryEventRows_eq hw hcs hside, ?_⟩
  simp only [pageOfFetched, hreverse, Bool.false_eq_true, if_false, gt_iff_lt,
    Keyset.take_lookahead]

/-- The matching events before the first one of `after`, which is the cursor. -/
theorem reverse_page {extra : Option String} (quality : TimeQuality)
    (hw : buildWhereWithAdditionalKeyword lc q extra = .ok clauses)
    (hm : DecodedAs (sortedRows lc q.sortByTime clauses t) (before ++ after))
    (hq : q.afterSeq = none)
    (hcursor : (q.beforeSeq, q.beforeTs) = cursorAt q.sortByTime after.head?) (hb : before ≠ [])
    (ha : after ≠ []) :
    ∃ page, queryEventRows lc q extra quality t.rows = .ok page ∧
      PageAt q (before.take (before.length - pageLimit q))
        (before.drop (before.length - pageLimit q)) after page := by
  obtain ⟨rows₁, rows₂, hrows, h₁, h₂⟩ := hm.split
  obtain ⟨e, after', rfl⟩ := exists_cons_of_ne_nil ha
  obtain ⟨r₀, rows', he, -, rfl⟩ := forall₂_cons_right_iff.mp h₂
  have hasc : Ascending (rowKey q.sortByTime) (sortedRows lc q.sortByTime clauses t) :=
    sortedRows_ascending
  have hmem : r₀ ∈ sortedRows lc q.sortByTime clauses t := by
    rw [hrows]
    simp
  have hr₀ := (mem_sortedRows.mp hmem).1
  have hreverse : isReversePage q = true := by
    have : q.beforeSeq = some e.seq := congrArg Prod.fst hcursor
    simp [isReversePage, hq, this]
  obtain ⟨cs, hcs, hsat⟩ := cursorClauses_before hr₀ he hcursor hq
  have hside : DecodedAs ((sortedRows lc q.sortByTime clauses t).filter (satisfies lc cs)) before := by
    rw [hrows] at hasc ⊢
    rw [filter_congr fun r _ => hsat r, hasc.filter_before]
    exact h₁
  refine ⟨_, queryEventRows_eq hw hcs hside, ?_⟩
  rw [hreverse]
  exact pageOfFetched_reverse hreverse hb ha

/-! ## Runs of requests -/

/-- A page that the first request and following cursors give. -/
inductive PageReached (query : EventQuery → CoreResult EventRowsPage) (f : EventQuery) :
    EventRowsPage → Prop
  | first {page : EventRowsPage} (h : query (firstRequest f) = .ok page) :
      PageReached query f page
  | next {page page' : EventRowsPage} (hpage : PageReached query f page)
      (hcursor : page.nextCursor.isSome = true) (h : query (nextRequest f page) = .ok page') :
      PageReached query f page'
  | prev {page page' : EventRowsPage} (hpage : PageReached query f page)
      (hcursor : page.prevCursor.isSome = true) (h : query (prevRequest f page) = .ok page') :
      PageReached query f page'

/-- The pages from a request on, until one has no next cursor. -/
def followNext (query : EventQuery → CoreResult EventRowsPage) (f : EventQuery) :
    Nat → EventQuery → CoreResult (List EventRowsPage)
  | 0, _ => .error "more pages than asked for"
  | fuel + 1, q => do
    let page ← query q
    if page.nextCursor.isSome then do
      let rest ← followNext query f fuel (nextRequest f page)
      pure (page :: rest)
    else pure [page]

variable {window : List ExplorerEvent} {page : EventRowsPage}

theorem PageAt.of_limit (h : PageAt q before window after page)
    (hsort : q.sortByTime = f.sortByTime) (hlimit : q.limit = f.limit) :
    PageAt f before window after page := by
  have hl : pageLimit q = pageLimit f := by simp [pageLimit, hlimit]
  exact ⟨h.events, hsort ▸ h.next, hsort ▸ h.prev, hl ▸ h.bounded, h.nonempty⟩

theorem PageAt.window_ne (h : PageAt f before window after page)
    (hside : before ≠ [] ∨ after ≠ []) : window ≠ [] := by
  intro hnil
  obtain ⟨hb, ha⟩ := h.nonempty hnil
  rcases hside with hside | hside
  · exact hside hb
  · exact hside ha

theorem PageAt.next_isSome (h : PageAt f before window after page) :
    page.nextCursor.isSome = true ↔ after ≠ [] := by
  have hnext : page.nextCursor = _ := congrArg Prod.fst h.next
  rw [hnext]
  by_cases ha : after = []
  · simp [ha, cursorAt]
  · obtain ⟨e, rest, hw⟩ := exists_cons_of_ne_nil (h.window_ne (.inr ha))
    simp [ha, cursorAt, hw]

theorem PageAt.prev_isSome (h : PageAt f before window after page) :
    page.prevCursor.isSome = true ↔ before ≠ [] := by
  have hprev : page.prevCursor = _ := congrArg Prod.fst h.prev
  rw [hprev]
  by_cases hb : before = []
  · simp [hb, cursorAt]
  · obtain ⟨e, rest, hw⟩ := exists_cons_of_ne_nil (h.window_ne (.inl hb))
    simp [hb, cursorAt, hw]

section Requests

variable {extra : Option String} (quality : TimeQuality) {matched : List ExplorerEvent}
  (hw : buildWhereWithAdditionalKeyword lc f extra = .ok clauses)
  (hm : DecodedAs (sortedRows lc f.sortByTime clauses t) matched)

include hw hm

theorem first_page_at : ∃ page,
    queryEventRows lc (firstRequest f) extra quality t.rows = .ok page ∧
      PageAt f [] (matched.take (pageLimit f)) (matched.drop (pageLimit f)) page := by
  have hcursor : ((firstRequest f).afterSeq, (firstRequest f).afterTs) =
      cursorAt (firstRequest f).sortByTime ([] : List ExplorerEvent).getLast? := by
    unfold cursorAt firstRequest
    cases f.sortByTime <;> rfl
  have hm' : DecodedAs (sortedRows lc (firstRequest f).sortByTime clauses t) ([] ++ matched) := hm
  obtain ⟨page, hpage, hat⟩ := forward_page (q := firstRequest f) quality hw hm' rfl hcursor
    (absurd rfl)
  exact ⟨page, hpage, hat.of_limit rfl rfl⟩

variable {before window after : List ExplorerEvent} {page : EventRowsPage}

theorem next_page_at (hsplit : matched = before ++ window ++ after)
    (hpage : PageAt f before window after page) (ha : after ≠ []) : ∃ page',
      queryEventRows lc (nextRequest f page) extra quality t.rows = .ok page' ∧
        PageAt f (before ++ window) (after.take (pageLimit f)) (after.drop (pageLimit f)) page' := by
  have hcursor : ((nextRequest f page).afterSeq, (nextRequest f page).afterTs) =
      cursorAt f.sortByTime (before ++ window).getLast? := by
    rw [getLast?_append_of_ne_nil _ (hpage.window_ne (.inr ha))]
    exact hpage.next.trans (by rw [if_neg ha])
  rw [hsplit] at hm
  obtain ⟨page', hpage', hat⟩ := forward_page (q := nextRequest f page) quality hw hm rfl
    hcursor fun _ => ha
  exact ⟨page', hpage', hat.of_limit rfl rfl⟩

theorem prev_page_at (hsplit : matched = before ++ window ++ after)
    (hpage : PageAt f before window after page) (hb : before ≠ []) : ∃ page',
      queryEventRows lc (prevRequest f page) extra quality t.rows = .ok page' ∧
        PageAt f (before.take (before.length - pageLimit f))
          (before.drop (before.length - pageLimit f)) (window ++ after) page' := by
  have hwindow := hpage.window_ne (.inl hb)
  have hcursor : ((prevRequest f page).beforeSeq, (prevRequest f page).beforeTs) =
      cursorAt f.sortByTime (window ++ after).head? := by
    rw [head?_append_of_ne_nil _ hwindow]
    exact hpage.prev.trans (by rw [if_neg hb])
  rw [hsplit, append_assoc] at hm
  obtain ⟨page', hpage', hat⟩ := reverse_page (q := prevRequest f page) quality hw hm rfl
    hcursor hb (append_ne_nil_of_left_ne_nil hwindow _)
  exact ⟨page', hpage', hat.of_limit rfl rfl⟩

/-- Every reached page is a window of the matching events. -/
theorem PageReached.at
    (h : PageReached (fun q => queryEventRows lc q extra quality t.rows) f page) :
    ∃ before window after, matched = before ++ window ++ after ∧
      PageAt f before window after page := by
  induction h with
  | first h =>
    obtain ⟨page', h', hat⟩ := first_page_at quality hw hm
    obtain rfl := Except.ok.inj (h.symm.trans h')
    exact ⟨[], _, _, by simp, hat⟩
  | next hpage hcursor h ih =>
    obtain ⟨before, window, after, hsplit, hat⟩ := ih
    obtain ⟨page', h', hat'⟩ := next_page_at quality hw hm hsplit hat (hat.next_isSome.mp hcursor)
    obtain rfl := Except.ok.inj (h.symm.trans h')
    refine ⟨_, _, _, ?_, hat'⟩
    rw [hsplit, append_assoc (before ++ window), take_append_drop]
  | prev hpage hcursor h ih =>
    obtain ⟨before, window, after, hsplit, hat⟩ := ih
    obtain ⟨page', h', hat'⟩ := prev_page_at quality hw hm hsplit hat (hat.prev_isSome.mp hcursor)
    obtain rfl := Except.ok.inj (h.symm.trans h')
    refine ⟨_, _, _, ?_, hat'⟩
    rw [take_append_drop, hsplit, append_assoc]

/-- Next requests from a page on show the page and everything after it. -/
theorem followNext_at {q : EventQuery} {fuel : Nat} (hsplit : matched = before ++ window ++ after)
    (hq : queryEventRows lc q extra quality t.rows = .ok page)
    (hpage : PageAt f before window after page) (hfuel : after.length < fuel) :
    ∃ pages, followNext (fun q => queryEventRows lc q extra quality t.rows) f fuel q = .ok pages ∧
      pages.flatMap EventRowsPage.events = window ++ after ∧
      (∀ p ∈ pages, p.events.length ≤ maxEventPage) ∧
      ∀ p ∈ pages, p.events = [] → pages = [p] := by
  induction fuel generalizing before window after page q with
  | zero => omega
  | succ fuel ih =>
    have hbounded : page.events.length ≤ maxEventPage := by
      rw [hpage.events]
      exact hpage.bounded.trans pageLimit_le
    by_cases ha : after = []
    · have hlast : ¬ page.nextCursor.isSome = true := fun h => hpage.next_isSome.mp h ha
      refine ⟨[page], ?_, by simp [hpage.events, ha], by simpa using hbounded, by simp⟩
      simp only [followNext, bind_ok]
      exact ⟨page, hq, by rw [if_neg hlast]; rfl⟩
    · obtain ⟨page', hq', hpage'⟩ := next_page_at quality hw hm hsplit hpage ha
      have hpos := pageLimit_pos (f := f)
      have hlen := length_pos_iff.mpr ha
      have hsplit' : matched = before ++ window ++ after.take (pageLimit f) ++
          after.drop (pageLimit f) := by
        rw [append_assoc (before ++ window), take_append_drop, hsplit]
      obtain ⟨rest, hrest, hflat, hle, hempty⟩ :=
        ih hsplit' hq' hpage' (by rw [length_drop]; omega)
      refine ⟨page :: rest, ?_, ?_, ?_, ?_⟩
      · simp only [followNext, bind_ok]
        refine ⟨page, hq, ?_⟩
        rw [if_pos (hpage.next_isSome.mpr ha), hrest]
        rfl
      · rw [flatMap_cons, hflat, hpage.events, take_append_drop]
      · intro p hp
        rcases mem_cons.mp hp with rfl | hp
        · exact hbounded
        · exact hle p hp
      · intro p hp hnil
        rcases mem_cons.mp hp with rfl | hp
        · rw [hpage.events] at hnil
          exact absurd hnil (hpage.window_ne (.inr ha))
        · -- a page after this one is the only one left, and shows a part of `after`
          rw [hempty p hp hnil, flatMap_cons, hnil, take_append_drop] at hflat
          exact absurd hflat.symm ha

end Requests

/-- Next requests from the first page enumerate the matching events, each once and in order, and
whatever page next and previous requests reach, its neighbours are contiguous with it. -/
theorem paging_exact (quality : TimeQuality) {extra : Option String}
    (hw : buildWhereWithAdditionalKeyword lc f extra = .ok clauses) :
    ∃ matched, Matched lc f.sortByTime clauses t matched ∧
      (∀ fuel, matched.length < fuel → ∃ pages,
        followNext (fun q => queryEventRows lc q extra quality t.rows) f fuel (firstRequest f) =
          .ok pages ∧
        pages.flatMap EventRowsPage.events = matched ∧
        (∀ p ∈ pages, p.events.length ≤ maxEventPage) ∧
        ∀ p ∈ pages, p.events = [] → pages = [p]) ∧
      ∀ page, PageReached (fun q => queryEventRows lc q extra quality t.rows) f page →
        ∃ before after, matched = before ++ page.events ++ after ∧
          page.events.length ≤ maxEventPage ∧
          (page.nextCursor.isSome = true ↔ after ≠ []) ∧
          (page.prevCursor.isSome = true ↔ before ≠ []) ∧
          (after ≠ [] → ∃ page' newer,
            queryEventRows lc (nextRequest f page) extra quality t.rows = .ok page' ∧
            after = page'.events ++ newer ∧ page'.events.length = min (pageLimit f) after.length) ∧
          (before ≠ [] → ∃ page' older,
            queryEventRows lc (prevRequest f page) extra quality t.rows = .ok page' ∧
            before = older ++ page'.events ∧
            page'.events.length = min (pageLimit f) before.length) := by
  obtain ⟨matched, hm, hmatched⟩ := exists_matched lc f.sortByTime clauses t
  refine ⟨matched, hmatched, fun fuel hfuel => ?_, fun page hreached => ?_⟩
  · obtain ⟨page, hq, hat⟩ := first_page_at quality hw hm
    have hlen : (matched.drop (pageLimit f)).length < fuel := by
      rw [length_drop]
      omega
    obtain ⟨pages, hpages, hflat, hrest⟩ := followNext_at quality hw hm (by simp) hq hat hlen
    exact ⟨pages, hpages, hflat.trans (take_append_drop _ _), hrest⟩
  · obtain ⟨before, window, after, hsplit, hat⟩ := hreached.at quality hw hm
    refine ⟨before, after, by rw [hat.events, hsplit], ?_, hat.next_isSome, hat.prev_isSome,
      fun ha => ?_, fun hb => ?_⟩
    · rw [hat.events]
      exact hat.bounded.trans pageLimit_le
    · obtain ⟨page', hq, hat'⟩ := next_page_at quality hw hm hsplit hat ha
      refine ⟨page', after.drop (pageLimit f), hq, ?_, ?_⟩
      · rw [hat'.events, take_append_drop]
      · rw [hat'.events, length_take]
    · obtain ⟨page', hq, hat'⟩ := prev_page_at quality hw hm hsplit hat hb
      refine ⟨page', before.take (before.length - pageLimit f), hq, ?_, ?_⟩
      · rw [hat'.events, take_append_drop]
      · rw [hat'.events, length_drop]
        omega

def errorTable : EventTable where
  rows := [{ errorRow with seq := 9 }, errorRow, { errorRow with seq := 8, ts := 1614912834 }]
  inColumns := by
    simp only [forall_mem_cons, not_mem_nil, false_implies, implies_true, and_true]
    exact ⟨⟨by decide, by decide, by decide, by decide⟩,
      ⟨by decide, by decide, by decide, by decide⟩, ⟨by decide, by decide, by decide, by decide⟩⟩
  decodes := by
    simp only [forall_mem_cons, not_mem_nil, false_implies, implies_true, and_true]
    exact ⟨⟨_, rfl⟩, ⟨_, rfl⟩, ⟨_, rfl⟩⟩
  distinct := by decide

theorem paging_exact_errors : ∃ matched,
    Matched asciiLowercase true [] errorTable matched ∧
    ∃ pages, followNext (fun q => queryEventRows asciiLowercase q none .wall errorTable.rows)
        { EventQuery.default with limit := 2 } (matched.length + 1)
        (firstRequest { EventQuery.default with limit := 2 }) = .ok pages ∧
      pages.flatMap EventRowsPage.events = matched := by
  have hw : buildWhereWithAdditionalKeyword asciiLowercase
      { EventQuery.default with limit := 2 } none = .ok [] := rfl
  obtain ⟨matched, hmatched, hfollow, -⟩ := paging_exact (t := errorTable) .wall hw
  obtain ⟨pages, hpages, hflat, -⟩ := hfollow _ (Nat.lt_succ_self _)
  exact ⟨matched, hmatched, pages, hpages, hflat⟩

end ContextDesk.LogAnalysis
