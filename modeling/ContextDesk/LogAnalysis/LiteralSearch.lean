import ContextDesk.LogAnalysis.EventSearch
import ContextDesk.LogAnalysis.QueryPaging

/-!
# Literal search is literal

For a text that is not blank, not too long and without wildcards, the `LIKE` condition selects the
messages that contain the text, every word of the text is then found in them, and so no row of a
page is dropped: a search shows the next `k` matching events, and is called partial when there were
`k` of them (`ShowsNext`). Following the cursors in the order of time shows all of them
(`literal_search_exact`).
-/

namespace ContextDesk.LogAnalysis

open Lib List
open Lib.Keyset (Ascending)

/-- The events that the conditions select and whose message contains the text, each once and in the
order of time. -/
structure LiteralMatches (lc : Lowercase) (raw : String) (clauses : List Clause) (t : EventTable)
    (events : List ExplorerEvent) : Prop where
  ascending : Ascending (eventKey true) events
  mem : ∀ e, e ∈ events ↔ ∃ r ∈ t.rows, satisfies lc clauses r = true ∧
    lc.lower (Text.trim raw.toList) <:+: lc.lower r.message.toList ∧ mapEvent r = .ok e

def shownEvents (pages : List EventSearchResult) : List ExplorerEvent :=
  pages.flatMap fun page => page.hits.map EventSearchHit.event

/-- Following the cursors shows the literal matches, and a result that is neither partial nor has a
cursor shows the last of them. -/
def LiteralExact (lc : Lowercase) (alnum : Alphanumeric) (t : EventTable) (f : EventQuery)
    (raw : String) (k : Nat) (quality : TimeQuality) : Prop :=
  ∀ clauses, buildWhere lc f = .ok clauses → ∃ fuel pages,
    followSearch (searchEventsAdvanced lc alnum quality t.rows) fuel (firstSearch f raw k) =
      .ok pages ∧
    LiteralMatches lc raw clauses t (shownEvents pages) ∧
    ∀ front page back, pages = front ++ page :: back → page.isPartial = false →
      page.nextCursor = none → LiteralMatches lc raw clauses t (shownEvents (front ++ [page]))

/-- Not blank, not too long, and without wildcards. -/
structure SearchableLiterally (raw : String) : Prop where
  nonblank : Text.trim raw.toList ≠ []
  short : ByteIndex.byteLen (Text.trim raw.toList) ≤ maxSearchPatternLen
  plain : ∀ c ∈ Text.trim raw.toList, Sql.isWild c = false

variable {lc : Lowercase} {alnum : Alphanumeric} {t : EventTable}

/-! ## Scores -/

theorem keywordScore_contained {kwL msgL : List Char} (h : kwL <:+: msgL) :
    keywordScore alnum kwL msgL = 1 := by
  unfold keywordScore
  by_cases hnil : (searchTokens alnum kwL).isEmpty = true
  · simp only [hnil, if_true, h]
  · have hall : (searchTokens alnum kwL).countP (fun t => t <:+: msgL) =
        (searchTokens alnum kwL).length := by
      rw [countP_eq_length]
      intro token htoken
      exact decide_eq_true ((Str.infix_of_mem_splitOnP (mem_of_mem_filter htoken)).trans h)
    have hlen : ((searchTokens alnum kwL).length : ℚ) ≠ 0 := by
      rw [List.isEmpty_iff] at hnil
      exact_mod_cast fun h => hnil (length_eq_zero_iff.mp h)
    simp only [hnil, Bool.false_eq_true, if_false, hall]
    exact div_self hlen

theorem foldl_pushHit {pattern : List Char} {events : List ExplorerEvent}
    {hits : List EventSearchHit}
    (hscore : ∀ e ∈ events, 0 < (keywordHit lc alnum pattern e).score)
    (hseq : (hits.map (fun h => h.event.seq) ++ events.map ExplorerEvent.seq).Nodup) :
    events.foldl (pushHit lc alnum pattern) hits = hits ++ events.map (keywordHit lc alnum pattern) := by
  induction events generalizing hits with
  | nil => simp
  | cons e events ih =>
    have hnew : hits.any (fun h => h.event.seq == e.seq) = false := by
      rw [any_eq_false]
      intro h hh heq
      have hdisjoint := (nodup_append'.mp hseq).2.2
      exact hdisjoint (mem_map_of_mem hh)
        (mem_map.mpr ⟨e, mem_cons_self, (eq_of_beq heq).symm⟩)
    have hpush : pushHit lc alnum pattern hits e = hits ++ [keywordHit lc alnum pattern e] := by
      simp only [pushHit, if_neg (not_le.mpr (hscore e mem_cons_self)), hnew,
        Bool.false_eq_true, if_false]
    rw [foldl_cons, hpush, ih (fun e' he' => hscore e' (mem_cons_of_mem _ he'))]
    · simp
    · simpa [keywordHit] using hseq

/-! ## One result -/

/-- The result shows the next `k` of the events, and has a cursor when there were `k`. -/
structure ShowsNext (k : Nat) (after : List ExplorerEvent) (r : EventSearchResult) : Prop where
  events : r.hits.map EventSearchHit.event = after.take k
  cursor : (r.nextCursor, r.nextTs) =
    cursorAt true (if k ≤ after.length then (after.take k).getLast? else none)

theorem hitLe_of_key {a b : EventSearchHit}
    (h : eventKey true a.event < eventKey true b.event) : hitLe a b = true := by
  unfold eventKey at h
  rw [Prod.Lex.toLex_lt_toLex] at h
  simp only [if_true] at h
  simp only [hitLe, decide_eq_true_eq, UInt64.le_iff_toNat_le]
  omega

theorem resultCap_pos (k : Nat) : 1 ≤ resultCap k := by
  unfold resultCap
  split <;> omega

theorem pageLimit_resultCap (f : EventQuery) (k : Nat) :
    pageLimit { f with limit := resultCap k } = resultCap k := by
  have hpos := resultCap_pos k
  have hle : resultCap k ≤ maxEventPage := by
    unfold resultCap maxEventPage
    split <;> omega
  simp only [pageLimit, if_neg (show ¬ resultCap k = 0 by omega)]
  omega

def literalClauses (lc : Lowercase) (raw : String) (clauses : List Clause) : List Clause :=
  clauses ++ [.messageLike ('%' :: lc.lower (Text.trim raw.toList) ++ ['%'])]

theorem buildWhere_literal {f : EventQuery} {raw : String} {clauses : List Clause}
    (hraw : Text.trim raw.toList ≠ []) (hw : buildWhere lc f = .ok clauses) :
    buildWhereWithAdditionalKeyword lc f (some (String.ofList (Text.trim raw.toList))) =
      .ok (literalClauses lc raw clauses) := by
  simp only [buildWhereWithAdditionalKeyword, String.toList_ofList, Str.trim_trim, if_neg hraw,
    bind_ok, pure_ok]
  exact ⟨clauses, hw, rfl⟩

/-- One search, behind the events of `before`. -/
theorem search_next (alnum : Alphanumeric) (q : EventSearchQuery) {raw : String}
    {clauses : List Clause} {before after : List ExplorerEvent} (quality : TimeQuality) (hraw : SearchableLiterally raw)
    (hquery : q.query = some raw) (hsort : q.filter.sortByTime = true)
    (hbefore : q.filter.beforeSeq = none)
    (hcursor : (q.filter.afterSeq, q.filter.afterTs) = cursorAt true before.getLast?)
    (hw : buildWhere lc q.filter = .ok clauses)
    (hm : DecodedAs (sortedRows lc true (literalClauses lc raw clauses) t) (before ++ after))
    (hasc : Ascending (eventKey true) after) (hseq : (after.map ExplorerEvent.seq).Nodup)
    (hmessage : ∀ e ∈ after, lc.lower (Text.trim raw.toList) <:+: lc.lower e.message.toList) :
    ∃ r, searchEventsAdvanced lc alnum quality t.rows q = .ok r ∧
      ShowsNext (resultCap q.k) after r := by
  have hwhere := buildWhere_literal (f := { q.filter with limit := resultCap q.k })
    hraw.nonblank hw
  have hcursor' : (q.filter.afterSeq, q.filter.afterTs) =
      cursorAt q.filter.sortByTime before.getLast? := by rw [hcursor, hsort]
  rw [← hsort] at hm
  obtain ⟨page, hpage, hevents⟩ := forward_events (q := { q.filter with limit := resultCap q.k })
    quality hwhere hm hbefore hcursor'
  rw [pageLimit_resultCap] at hevents
  have hsub : (after.take (resultCap q.k)).Sublist after := take_sublist _ _
  have hfound : page.events.foldl (pushHit lc alnum (Text.trim raw.toList)) [] =
      (after.take (resultCap q.k)).map (keywordHit lc alnum (Text.trim raw.toList)) := by
    rw [hevents, foldl_pushHit]
    · rw [nil_append]
    · intro e he
      show 0 < keywordScore alnum _ _
      rw [keywordScore_contained (hmessage e (hsub.subset he))]
      exact one_pos
    · exact hseq.sublist (hsub.map _)
  have hsorted : ((after.take (resultCap q.k)).map
      (keywordHit lc alnum (Text.trim raw.toList))).Pairwise fun a b => hitLe a b = true :=
    pairwise_map.mpr ((hasc.sublist hsub).imp fun h => hitLe_of_key h)
  have hcap := resultCap_pos q.k
  have hpartial : decide (resultCap q.k ≤ (after.take (resultCap q.k)).length) =
      decide (resultCap q.k ≤ after.length) := by
    rw [decide_eq_decide, length_take]
    omega
  have htake : ((after.take (resultCap q.k)).map
      (keywordHit lc alnum (Text.trim raw.toList))).take (resultCap q.k) =
      (after.take (resultCap q.k)).map (keywordHit lc alnum (Text.trim raw.toList)) := by
    rw [← map_take, take_take, min_self]
  have hlast : ∀ {α : Type} (g : ExplorerEvent → α),
      ((after.take (resultCap q.k)).map (keywordHit lc alnum (Text.trim raw.toList))).getLast?.map
        (fun h => g h.event) = (after.take (resultCap q.k)).getLast?.map g := by
    intro α g
    rw [getLast?_map, Option.map_map]
    rfl
  have hsearch : searchEventsAdvanced lc alnum quality t.rows q =
      .ok (resultOfPage lc alnum (Text.trim raw.toList) (resultCap q.k) page.events
        (t.rows.countP (satisfies lc (literalClauses lc raw clauses)))) := by
    simp only [searchEventsAdvanced, hquery, if_neg hraw.nonblank, if_neg (not_lt.mpr hraw.short),
      bind_ok, gt_iff_lt]
    exact ⟨page, hpage, _, hwhere, rfl⟩
  refine ⟨_, hsearch, ?_, ?_⟩
  · simp only [resultOfPage, hfound, hsorted.insertionSort_eq, htake]
    rw [map_map]
    exact map_id _
  · simp only [resultOfPage, hfound, hsorted.insertionSort_eq, htake, length_map, hpartial,
      hlast ExplorerEvent.seq, hlast ExplorerEvent.ts, decide_eq_true_eq, cursorAt, if_true]
    by_cases hfull : resultCap q.k ≤ after.length
    · simp [hfull]
    · simp [hfull]

/-! ## Following the cursors -/

theorem DecodedAs.seq_nodup {rows : List EventRow} {events : List ExplorerEvent}
    (h : DecodedAs rows events) (hrows : ∀ r ∈ rows, r ∈ t.rows)
    (hseq : (rows.map EventRow.seq).Nodup) : (events.map ExplorerEvent.seq).Nodup := by
  have hmap : events.map (fun e => (e.seq.toNat : Int)) = rows.map EventRow.seq := by
    induction h with
    | nil => rfl
    | @cons r e rows events he hrest ih =>
      have d := decoded_of_mapEvent (t.inColumns r (hrows r mem_cons_self)) he
      rw [map_cons, map_cons, d.seq, ih
        (fun r' hr' => hrows r' (mem_cons_of_mem _ hr')) (nodup_cons.mp hseq).2]
  refine List.Nodup.of_map (fun seq => (seq.toNat : Int)) ?_
  rw [map_map]
  exact hmap ▸ hseq

theorem ShowsNext.continues {k : Nat} {after : List ExplorerEvent} {r : EventSearchResult}
    (h : ShowsNext k after r) (hk : 1 ≤ k) :
    (r.nextCursor.isSome = true ↔ k ≤ after.length) ∧
      (r.nextTs.isSome = true ↔ k ≤ after.length) := by
  have hcursor : r.nextCursor = _ := congrArg Prod.fst h.cursor
  have hts : r.nextTs = _ := congrArg Prod.snd h.cursor
  rw [hcursor, hts]
  by_cases hfull : k ≤ after.length
  · have hk0 : k ≠ 0 := by omega
    have hne : after ≠ [] := ne_nil_of_length_pos (by omega)
    simp [hfull, cursorAt, hk0, hne]
  · simp [hfull, cursorAt]

section Following

variable {raw : String} {f : EventQuery} {k : Nat} {clauses : List Clause} (quality : TimeQuality)
  {matched : List ExplorerEvent} (hraw : SearchableLiterally raw) (hsort : f.sortByTime = true)
  (hw : buildWhere lc f = .ok clauses)
  (hm : DecodedAs (sortedRows lc true (literalClauses lc raw clauses) t) matched)
  (hasc : Ascending (eventKey true) matched) (hseq : (matched.map ExplorerEvent.seq).Nodup)
  (hmessage : ∀ e ∈ matched, lc.lower (Text.trim raw.toList) <:+: lc.lower e.message.toList)

/-- The search behind the events of `before`. -/
def searchBehind (f : EventQuery) (raw : String) (k : Nat) (before : List ExplorerEvent) :
    EventSearchQuery :=
  { firstSearch f raw k with
    filter := { (firstSearch f raw k).filter with
      afterSeq := before.getLast?.map ExplorerEvent.seq
      afterTs := before.getLast?.map ExplorerEvent.ts } }

theorem nextSearch_behind (f : EventQuery) (raw : String) (before : List ExplorerEvent)
    {after : List ExplorerEvent} {r : EventSearchResult}
    (hr : ShowsNext (resultCap k) after r) (hfull : resultCap k ≤ after.length) :
    nextSearch (searchBehind f raw k before) r =
      searchBehind f raw k (before ++ after.take (resultCap k)) := by
  have hpos := resultCap_pos k
  have hne : after.take (resultCap k) ≠ [] := by
    rw [ne_eq, take_eq_nil_iff, ← length_eq_zero_iff]
    omega
  have hcursor : r.nextCursor = _ := congrArg Prod.fst hr.cursor
  have hts : r.nextTs = _ := congrArg Prod.snd hr.cursor
  rw [if_pos hfull] at hcursor hts
  simp only [nextSearch, searchBehind, getLast?_append_of_ne_nil _ hne, hcursor, hts, cursorAt,
    if_true]

include hraw hsort hw hm hasc hseq hmessage

/-- The results from a search on show what is left, and only the last one has no cursor. -/
theorem followSearch_behind (alnum : Alphanumeric) (k : Nat) {before after : List ExplorerEvent}
    {fuel : Nat} (hsplit : matched = before ++ after) (hfuel : after.length < fuel) :
    ∃ pages, followSearch (searchEventsAdvanced lc alnum quality t.rows) fuel
        (searchBehind f raw k before) = .ok pages ∧
      shownEvents pages = after ∧
      ∀ front page back, pages = front ++ page :: back → page.nextCursor = none → back = [] := by
  induction fuel generalizing before after with
  | zero => omega
  | succ fuel ih =>
    subst hsplit
    have hsuffix : after.Sublist (before ++ after) := sublist_append_right _ _
    obtain ⟨r, hr, hshows⟩ := search_next alnum (searchBehind f raw k before)
      quality hraw rfl hsort rfl rfl hw hm (hasc.sublist hsuffix)
      (hseq.sublist (hsuffix.map _)) fun e he => hmessage e (hsuffix.subset he)
    have hshows : ShowsNext (resultCap k) after r := hshows
    have hpos := resultCap_pos k
    obtain ⟨hcursor, hts⟩ := hshows.continues hpos
    by_cases hfull : resultCap k ≤ after.length
    · have hnext := nextSearch_behind f raw before hshows hfull
      have hsplit : before ++ after =
          before ++ after.take (resultCap k) ++ after.drop (resultCap k) := by
        rw [append_assoc, take_append_drop]
      obtain ⟨rest, hrest, hshown, hlast⟩ := ih hsplit (by rw [length_drop]; omega)
      refine ⟨r :: rest, ?_, ?_, ?_⟩
      · simp only [followSearch, bind_ok]
        refine ⟨r, hr, ?_⟩
        rw [hcursor.mpr hfull, hts.mpr hfull, hnext, hrest]
        rfl
      · rw [shownEvents, flatMap_cons, hshows.events, ← shownEvents, hshown,
          take_append_drop]
      · rintro (_ | ⟨first, front⟩) page back hpages hnone
        · obtain ⟨rfl, -⟩ := cons.inj hpages
          rw [hnone] at hcursor
          cases hcursor.mpr hfull
        · exact hlast front page back (cons.inj hpages).2 hnone
    · refine ⟨[r], ?_, ?_, ?_⟩
      · have hstop : r.nextCursor.isSome = false := Bool.eq_false_iff.mpr fun h => hfull (hcursor.mp h)
        simp only [followSearch, bind_ok]
        refine ⟨r, hr, ?_⟩
        rw [hstop]
        rfl
      · rw [shownEvents, flatMap_singleton, hshows.events, take_of_length_le (by omega)]
      · rintro (_ | ⟨first, front⟩) page back hpages -
        · exact (cons.inj hpages).2.symm
        · have := congrArg List.length (cons.inj hpages).2
          simp at this

end Following

theorem satisfies_literal {raw : String} {clauses : List Clause} {r : EventRow}
    (hraw : SearchableLiterally raw) :
    satisfies lc (literalClauses lc raw clauses) r = true ↔ satisfies lc clauses r = true ∧
      lc.lower (Text.trim raw.toList) <:+: lc.lower r.message.toList := by
  rw [literalClauses, satisfies_append, Bool.and_eq_true]
  refine and_congr_right fun _ => ?_
  simp only [satisfies, Sql.allTrue, Clause.truth, map_cons, map_nil, all_cons,
    all_nil, Bool.and_true, beq_iff_eq, Option.some.injEq]
  exact Sql.like_contains (lower_plain hraw.plain)

/-- The search for a text that is not blank, not too long and without wildcards, in the order of
time, is literal. -/
theorem literal_search_exact (lc : Lowercase) (alnum : Alphanumeric) (t : EventTable)
    (f : EventQuery) (raw : String) (k : Nat) (quality : TimeQuality)
    (hraw : SearchableLiterally raw) (hsort : f.sortByTime = true) :
    LiteralExact lc alnum t f raw k quality := by
  intro clauses hw
  obtain ⟨matched, hm, hmatched⟩ := exists_matched lc true (literalClauses lc raw clauses) t
  have hexact : LiteralMatches lc raw clauses t matched := by
    refine ⟨hmatched.ascending, fun e => (hmatched.mem e).trans ?_⟩
    simp only [satisfies_literal hraw, and_assoc]
  have hrows : ∀ r ∈ sortedRows lc true (literalClauses lc raw clauses) t, r ∈ t.rows :=
    fun r hr => (mem_sortedRows.mp hr).1
  have hmessage : ∀ e ∈ matched,
      lc.lower (Text.trim raw.toList) <:+: lc.lower e.message.toList := by
    intro e he
    obtain ⟨r, hr, -, hin, hdec⟩ := (hexact.mem e).mp he
    rw [(decoded_of_mapEvent (t.inColumns r hr) hdec).message]
    exact hin
  have hnodup : ((sortedRows lc true (literalClauses lc raw clauses) t).map EventRow.seq).Nodup := by
    have hperm := (perm_insertionSort (fun a b => rowLe true a b = true)
      (t.rows.filter (satisfies lc (literalClauses lc raw clauses)))).map EventRow.seq
    exact hperm.nodup_iff.mpr (t.distinct.sublist filter_sublist)
  obtain ⟨pages, hpages, hshown, hlast⟩ := followSearch_behind quality hraw hsort hw hm
    hmatched.ascending (hm.seq_nodup hrows hnodup) hmessage alnum k (nil_append matched).symm
    (Nat.lt_succ_self _)
  refine ⟨_, pages, hpages, hshown.symm ▸ hexact, fun front page back hsplit _ hnone => ?_⟩
  obtain rfl := hlast front page back hsplit hnone
  rw [← hsplit, hshown]
  exact hexact

/-- `char::is_alphanumeric` on ASCII text. -/
def asciiAlphanumeric : Alphanumeric where
  isAlphanumeric := Char.isAlphanum
  wild := by
    intro c hc
    simp only [Sql.isWild, decide_eq_true_eq] at hc
    rcases hc with rfl | rfl <;> decide

theorem literal_search_exact_errors :
    SearchableLiterally " Disk-Full" ∧
      LiteralExact asciiLowercase asciiAlphanumeric errorTable EventQuery.default " Disk-Full" 2
        .wall := by
  have htrim : Text.trim " Disk-Full".toList = "Disk-Full".toList := by decide
  have hraw : SearchableLiterally " Disk-Full" :=
    ⟨by decide, by decide, by rw [htrim]; simp [Sql.isWild]⟩
  exact ⟨hraw, literal_search_exact _ _ _ _ _ _ _ hraw rfl⟩

/-! ## Searches that are not literal -/

def messageRows (message : String) : List EventRow :=
  [{ errorRow with message := message },
    { errorRow with message := message, seq := 8, ts := 1614912832 }]

def messageTable (message : String) : EventTable where
  rows := messageRows message
  inColumns := by
    simp only [messageRows, forall_mem_cons, not_mem_nil, false_implies, implies_true,
      and_true]
    constructor
    · constructor <;> simp [errorRow, i64Max]
    · constructor <;> simp [errorRow, i64Max]
  decodes := by
    simp only [messageRows, forall_mem_cons, not_mem_nil, false_implies, implies_true,
      and_true]
    exact ⟨⟨_, rfl⟩, ⟨_, rfl⟩⟩
  distinct := by
    show [errorRow.seq, 8].Nodup
    decide

theorem LiteralExact.first {f : EventQuery} {raw : String} {k : Nat} {quality : TimeQuality}
    {r : EventSearchResult} (h : LiteralExact lc alnum t f raw k quality) (clauses : List Clause)
    (hw : buildWhere lc f = .ok clauses)
    (hr : searchEventsAdvanced lc alnum quality t.rows (firstSearch f raw k) = .ok r) :
    ∃ rest, LiteralMatches lc raw clauses t (r.hits.map EventSearchHit.event ++ rest) ∧
      (r.nextCursor = none → rest = []) := by
  obtain ⟨fuel, pages, hpages, hmatches, -⟩ := h clauses hw
  rcases fuel with _ | fuel
  · cases hpages
  simp only [followSearch, bind_ok] at hpages
  obtain ⟨r', hr', hpages⟩ := hpages
  obtain rfl := Except.ok.inj (hr.symm.trans hr')
  split at hpages
  · rename_i hcursor
    simp only [bind_ok, pure_ok] at hpages
    obtain ⟨rest, -, rfl⟩ := hpages
    refine ⟨shownEvents rest, hmatches, fun hnone => ?_⟩
    rw [hnone] at hcursor
    cases hcursor
  · rw [pure_ok] at hpages
    subst hpages
    refine ⟨[], ?_, fun _ => rfl⟩
    simpa [shownEvents] using hmatches

theorem not_exact_of_refused (lc : Lowercase) (alnum : Alphanumeric) {raw : String} (hraw : Text.trim raw.toList = [] ∨
      maxSearchPatternLen < ByteIndex.byteLen (Text.trim raw.toList)) :
    ¬ LiteralExact lc alnum (messageTable (String.ofList (Text.trim raw.toList)))
        EventQuery.default raw 1 .wall := by
  intro h
  obtain ⟨r, hsearch, hhits, hnone⟩ : ∃ r, searchEventsAdvanced lc alnum .wall
      (messageRows (String.ofList (Text.trim raw.toList)))
      (firstSearch EventQuery.default raw 1) = .ok r ∧ r.hits = [] ∧ r.nextCursor = none := by
    by_cases hblank : Text.trim raw.toList = []
    · exact ⟨_, if_pos hblank, rfl, rfl⟩
    · exact ⟨_, (if_neg hblank).trans (if_pos (hraw.resolve_left hblank)), rfl, rfl⟩
  obtain ⟨rest, hmatches, hrest⟩ := h.first [] rfl hsearch
  rw [hhits, hrest hnone] at hmatches
  have hmem := (hmatches.mem _).mpr ⟨_, mem_cons_self, rfl, ?_, rfl⟩
  · cases hmem
  · show _ <:+: lc.lower (String.ofList (Text.trim raw.toList)).toList
    rw [String.toList_ofList]

def hitPlaces (r : EventSearchResult) : List (UInt64 × Int) :=
  r.hits.map fun h => (h.event.seq, h.event.ts)

def repeatedText (n : Nat) : String := String.ofList (replicate n 'a')

theorem trim_repeatedText (n : Nat) :
    Text.trim (repeatedText n).toList = replicate n 'a' := by
  have ha : Text.isWhitespace 'a' = false := by decide
  rw [repeatedText, String.toList_ofList]
  simp only [Text.trim, Text.trimStart, Text.trimEnd, dropWhile_replicate, ha,
    reverse_replicate, Bool.false_eq_true, if_false]

theorem not_exact_of_repeated {n : Nat} (hn : maxSearchPatternLen < n) :
    ¬ LiteralExact lc alnum (messageTable (repeatedText n)) EventQuery.default (repeatedText n) 1
        .wall := by
  have hlong := ByteIndex.length_le_byteLen (Text.trim (repeatedText n).toList)
  nth_rewrite 1 [trim_repeatedText] at hlong
  rw [length_replicate] at hlong
  have := not_exact_of_refused lc alnum (.inr (hn.trans_le hlong))
  rwa [trim_repeatedText] at this

/-- A wildcard matches another character, a blank text and one of more than 256 bytes find nothing,
and results in the order of the sequences are not in the order of time. -/
theorem literal_search_inexact :
    ¬ LiteralExact asciiLowercase asciiAlphanumeric (messageTable "disk-full") EventQuery.default
        "disk_full" 1 .wall ∧
      ¬ LiteralExact asciiLowercase asciiAlphanumeric (messageTable "") EventQuery.default " " 1
        .wall ∧
      ¬ LiteralExact asciiLowercase asciiAlphanumeric (messageTable (repeatedText 257))
        EventQuery.default (repeatedText 257) 1 .wall ∧
      ¬ LiteralExact asciiLowercase asciiAlphanumeric (messageTable "disk-full")
        { EventQuery.default with sortByTime := false } "disk-full" 1 .wall := by
  refine ⟨fun h => ?_, ?_, ?_, fun h => ?_⟩
  · obtain ⟨r, hsearch, hplaces⟩ : ∃ r, searchEventsAdvanced asciiLowercase asciiAlphanumeric .wall
        (messageRows "disk-full") (firstSearch EventQuery.default "disk_full" 1) = .ok r ∧
        hitPlaces r = [(8, 1614912832)] := ⟨_, rfl, by decide +kernel⟩
    obtain ⟨rest, hmatches, -⟩ := h.first [] rfl hsearch
    obtain ⟨hit, hhits, -⟩ := map_eq_singleton_iff.mp hplaces
    rw [hhits] at hmatches
    obtain ⟨r, hr, -, hin, -⟩ := (hmatches.mem hit.event).mp mem_cons_self
    revert hin
    rcases mem_pair.mp hr with rfl | rfl <;> decide
  · have hblank : Text.trim " ".toList = [] := by decide
    have := not_exact_of_refused asciiLowercase asciiAlphanumeric (.inl hblank)
    rwa [hblank] at this
  · exact not_exact_of_repeated (by decide)
  · obtain ⟨r, hsearch, hplaces⟩ : ∃ r, searchEventsAdvanced asciiLowercase asciiAlphanumeric .wall
        (messageRows "disk-full")
        (firstSearch { EventQuery.default with sortByTime := false } "disk-full" 1) = .ok r ∧
        hitPlaces r = [(7, 1614912833)] := ⟨_, rfl, by decide +kernel⟩
    obtain ⟨rest, hmatches, -⟩ := h.first [] rfl hsearch
    obtain ⟨hit, hhits, hplace⟩ := map_eq_singleton_iff.mp hplaces
    obtain ⟨hseq, hts⟩ := Prod.mk.inj hplace
    rw [hhits] at hmatches
    have hother := (hmatches.mem _).mpr
      ⟨_, mem_cons_of_mem _ mem_cons_self, rfl, by decide, rfl⟩
    -- the other event is earlier, and it is shown later
    rcases mem_cons.mp hother with heq | hlater
    · rw [← heq] at hseq
      cases hseq
    · have hlt := (pairwise_cons.mp hmatches.ascending).1 _ hlater
      simp only [eventKey, if_true, Prod.Lex.toLex_lt_toLex, hts] at hlt
      rcases hlt with hlt | ⟨heq, -⟩
      · exact absurd hlt (by decide)
      · exact absurd heq (by decide)

end ContextDesk.LogAnalysis
