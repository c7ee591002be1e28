import ContextDesk.Lib.Keyset
import ContextDesk.Lib.Str
import ContextDesk.LogAnalysis.Chronology

/-!
# The pages of a chronology

Over one table the matching events have one order (`chronology`), and a page is a window of it:
`fetchChronology_eq` says which events a request shows that continues after some of them, and
`followChronology_eq` that following the cursors shows them all. `fingerprint_inj` says that a
cursor tells the filters apart.
-/

namespace ContextDesk.LogAnalysis

open Lib List
open Lib.Keyset (Ascending)
open Lib.Utf8 (textBytes textBytes_inj)

/-! ## Fingerprints -/

theorem sortDedup_idem {α : Type} [LinearOrder α] (l : List α) :
    sortDedup (sortDedup l) = sortDedup l := by
  have hasc : ∀ l : List α, Ascending id (sortDedup l) := sortDedup_increasing
  exact (hasc _).eq_of_mem (hasc _) fun a => mem_sortDedup

theorem normalizedSearch_idem (search : Option String) :
    normalizedSearch (normalizedSearch search) = normalizedSearch search := by
  unfold normalizedSearch
  cases search with
  | none => rfl
  | some value =>
    simp only [Option.map_some, Option.filter_some]
    split
    · rename_i h
      simp only [Option.map_some, Option.filter_some, String.toList_ofList, Str.trim_trim]
      rw [if_pos h]
    · rfl

theorem utf8ByteSize_le_length (s : String) : s.utf8ByteSize ≤ 4 * s.length := by
  induction s using String.push_induction with
  | empty => simp
  | push s c ih =>
    have := c.utf8Size_le_four
    rw [String.length_push, String.utf8ByteSize_push]
    omega

/-- A text that a length of eight bytes can announce. -/
def Announced (s : String) : Prop := s.utf8ByteSize < 256 ^ 8

theorem sizedText_delimited : Delimited Announced sizedText :=
  (leBytes_delimited 8).sized.comap (fun _ h => h) fun _ _ _ _ => textBytes_inj

structure ChronologyFilter.Announced (f : ChronologyFilter) : Prop where
  search : ∀ value ∈ f.search, LogAnalysis.Announced value
  count : f.sources.length < 256 ^ 8
  sources : ∀ value ∈ f.sources, LogAnalysis.Announced value

theorem searchBytes_delimited :
    Delimited (fun search : Option String => ∀ value ∈ search, Announced value)
      fun search => (if search.isSome then 1 else 0) :: search.elim [] sizedText := by
  refine Delimited.tagged fun t => ?_
  rintro (_ | a) (_ | b) x y ⟨ha, hta⟩ ⟨hb, htb⟩ heq
  · exact ⟨rfl, heq⟩
  · exact absurd (hta.trans htb.symm) (by simp)
  · exact absurd (hta.trans htb.symm) (by simp)
  · obtain ⟨rfl, hxy⟩ := sizedText_delimited (ha a rfl) (hb b rfl) heq
    exact ⟨rfl, hxy⟩

theorem ChronologyFilter.bytes_inj {f g : ChronologyFilter} (hf : f.Announced)
    (hg : g.Announced) (h : f.bytes = g.bytes) : f = g := by
  have hd := (searchBytes_delimited.pair
    (sizedText_delimited.counted (leBytes_delimited 8))).header
      (textBytes "cd-core.log-chronology-filter.v1\x00")
  have hbytes : ∀ f : ChronologyFilter, f.bytes =
      textBytes "cd-core.log-chronology-filter.v1\x00" ++
        (((if f.search.isSome then 1 else 0) :: f.search.elim [] sizedText) ++
          (leBytes 8 f.sources.length ++ f.sources.flatMap sizedText)) := by
    intro f
    unfold ChronologyFilter.bytes
    cases f.search <;> rfl
  rw [hbytes, hbytes] at h
  have hpair := hd.inj (a := (f.search, f.sources)) (b := (g.search, g.sources))
    ⟨hf.search, hf.count, hf.sources⟩ ⟨hg.search, hg.count, hg.sources⟩ h
  obtain ⟨fs, fl⟩ := f
  obtain ⟨gs, gl⟩ := g
  simpa using hpair

theorem ChronologyFilter.announced_of_valid {f : ChronologyFilter} (h : f.validate = .ok ()) :
    f.Announced := by
  simp only [validate, bind_ok, ensure_ok, ensureAll_ok] at h
  obtain ⟨-, hsearch, -, hcount, hsources⟩ := h
  refine ⟨fun value hv => ?_, ?_, fun value hv => ?_⟩
  · have hlen := (hsearch value hv).1
    have := utf8ByteSize_le_length value
    unfold maxChronologySearchChars at hlen
    show value.utf8ByteSize < 256 ^ 8
    omega
  · unfold maxChronologySources at hcount
    omega
  · have hs := hsources value hv
    simp only [validateChronologySource, bind_ok, ensure_ok] at hs
    obtain ⟨-, ⟨-, hlen, -⟩, -⟩ := hs
    unfold maxChronologySourceBytes at hlen
    show value.utf8ByteSize < 256 ^ 8
    omega

variable {q : ChronologyQuery}

theorem fingerprint_inj {sha256 : List UInt8 → String} (hsha : Function.Injective sha256)
    {q' : ChronologyQuery} (hq : q.filter.validate = .ok ()) (hq' : q'.filter.validate = .ok ())
    (h : chronologyFilterFingerprint sha256 q.filter =
      chronologyFilterFingerprint sha256 q'.filter) : q.filter = q'.filter := by
  have hnorm : ∀ q : ChronologyQuery, (⟨normalizedSearch q.filter.search,
      sortDedup q.filter.sources⟩ : ChronologyFilter) = q.filter := by
    intro q
    unfold ChronologyQuery.filter
    rw [normalizedSearch_idem, sortDedup_idem]
  have hbytes := hsha h
  rw [hnorm, hnorm] at hbytes
  exact ChronologyFilter.bytes_inj (ChronologyFilter.announced_of_valid hq)
    (ChronologyFilter.announced_of_valid hq') hbytes

/-! ## The order of the events -/

variable {lc : Lowercase} {f : ChronologyFilter} {rows : List EventRow}

/-- Every event has a sequence of its own, within the column. -/
structure Sequenced (rows : List EventRow) : Prop where
  nonneg : ∀ r ∈ rows, 0 ≤ r.seq
  le : ∀ r ∈ rows, r.seq ≤ i64Max
  distinct : Distinct EventRow.seq rows

instance sequencedDecidable (rows : List EventRow) : Decidable (Sequenced rows) :=
  decidable_of_iff ((∀ r ∈ rows, 0 ≤ r.seq) ∧ (∀ r ∈ rows, r.seq ≤ i64Max) ∧
    Distinct EventRow.seq rows) ⟨fun ⟨h0, hle, hd⟩ => ⟨h0, hle, hd⟩, fun h => ⟨h.1, h.2, h.3⟩⟩

def chronologyKey (r : EventRow) : Int ×ₗ Int ×ₗ Int :=
  toLex (wallGroup r, toLex (axisValue r, r.seq))

variable {a b : EventRow}

theorem chronologyLe_iff : chronologyLe a b = true ↔ chronologyKey a ≤ chronologyKey b := by
  unfold chronologyLe chronologyKey
  rw [Prod.Lex.toLex_le_toLex, Prod.Lex.toLex_le_toLex, decide_eq_true_eq]

theorem Sequenced.chronologyKey_nodup (h : Sequenced rows) (p : EventRow → Bool) :
    ((rows.filter p).map chronologyKey).Nodup := by
  refine List.Nodup.of_map (fun k => (ofLex (ofLex k).2).2) ?_
  rw [map_map]
  exact h.distinct.sublist filter_sublist

/-- The matching rows in the order of the pages. -/
def chronologyRows (lc : Lowercase) (f : ChronologyFilter) (rows : List EventRow) :
    List EventRow :=
  (rows.filter (f.matches lc)).insertionSort fun a b => chronologyLe a b

theorem mem_chronologyRows {r : EventRow} :
    r ∈ chronologyRows lc f rows ↔ r ∈ rows ∧ f.matches lc r = true := by
  unfold chronologyRows
  rw [mem_insertionSort, mem_filter]

theorem Sequenced.ascending (h : Sequenced rows) :
    Ascending chronologyKey (chronologyRows lc f rows) :=
  Keyset.ascending_insertionSort (fun _ _ => chronologyLe_iff) (h.chronologyKey_nodup _)

/-! ## Decoded rows -/

theorem provesInstant_eq (r : EventRow) :
    provesInstant r = (r.activeTimestampBasis.getD .legacyUnknown).isWallClock := by
  unfold provesInstant Sql.isIn
  cases r.activeTimestampBasis with
  | none => rfl
  | some b => cases b <;> rfl

def chronologyEvent (r : EventRow) : ChronologyEvent where
  seq := UInt64.ofNat r.seq.toNat
  ts := r.ts
  timestampProvenance := r.timestampProvenance.getD .legacyUnknown
  activeTimestampBasis := r.activeTimestampBasis.getD .legacyUnknown
  unresolvedLocalTimestamp := r.unresolvedLocalTimestamp
  level := r.level
  message := r.message
  source := r.source

theorem mapChronologyEvent_eq {r : EventRow} (h : 0 ≤ r.seq) :
    mapChronologyEvent r = .ok (chronologyEvent r) := by
  have hgroup : wallGroup r =
      if (r.activeTimestampBasis.getD .legacyUnknown).isWallClock then 0 else 1 := by
    rw [wallGroup, provesInstant_eq]
  simp only [mapChronologyEvent, bind_ok, require_ok, ensure_ok, pure_ok]
  exact ⟨UInt64.ofNat r.seq.toNat, by rw [tryU64, if_pos h], (), hgroup, rfl⟩

/-- All matching events, in the order of the pages. -/
def chronology (lc : Lowercase) (f : ChronologyFilter) (rows : List EventRow) :
    List ChronologyEvent :=
  (chronologyRows lc f rows).map chronologyEvent

theorem toNat_seq {r : EventRow} (h0 : 0 ≤ r.seq) (hle : r.seq ≤ i64Max) :
    ((chronologyEvent r).seq.toNat : Int) = r.seq := by
  have hlt : r.seq.toNat < 2 ^ 64 := by
    unfold i64Max at hle
    omega
  have hn : (UInt64.ofNat r.seq.toNat).toNat = r.seq.toNat := by simpa using Nat.mod_eq_of_lt hlt
  show ((UInt64.ofNat r.seq.toNat).toNat : Int) = r.seq
  rw [hn]
  omega

theorem tryI64_seq {r : EventRow} (h0 : 0 ≤ r.seq) (hle : r.seq ≤ i64Max) :
    tryI64 (chronologyEvent r).seq = some r.seq := by
  have hn := toNat_seq h0 hle
  rw [tryI64, if_pos (by omega), hn]

/-! ## What the order is -/

/-- The event matches the query: the trimmed text occurs in its message, whatever the case, and its
source is listed. A blank text and an empty list ask for nothing. -/
def ChronologyQuery.Matches (lc : Lowercase) (q : ChronologyQuery) (r : EventRow) : Prop :=
  (∀ value ∈ q.search, Text.trim value.toList = [] ∨
    lc.lower (Text.trim value.toList) <:+: lc.lower r.message.toList) ∧
  (q.sources = [] ∨ r.source ∈ q.sources)

theorem ChronologyQuery.matches_iff {r : EventRow} :
    q.filter.matches lc r = true ↔ q.Matches lc r := by
  have hempty : (sortDedup q.sources).isEmpty = true ↔ q.sources = [] := by
    rw [List.isEmpty_iff, eq_nil_iff_forall_not_mem, eq_nil_iff_forall_not_mem]
    simp only [mem_sortDedup]
  have hsources : Sql.allTrue (if (sortDedup q.sources).isEmpty then []
      else [Sql.isIn (some r.source) (sortDedup q.sources)]) = true ↔
      q.sources = [] ∨ r.source ∈ q.sources := by
    by_cases hnil : q.sources = []
    · rw [if_pos (hempty.mpr hnil)]
      simp [hnil, Sql.allTrue]
    · rw [if_neg (mt hempty.mp hnil), or_iff_right hnil]
      simp [Sql.allTrue, Sql.isIn, mem_sortDedup]
  have hsearch : Sql.allTrue ((normalizedSearch q.search).toList.map fun value =>
      some (decide (lc.lower value.toList <:+: lc.lower r.message.toList))) = true ↔
      ∀ value ∈ q.search, Text.trim value.toList = [] ∨
        lc.lower (Text.trim value.toList) <:+: lc.lower r.message.toList := by
    unfold normalizedSearch
    cases q.search with
    | none => simp [Sql.allTrue]
    | some value =>
      by_cases hblank : Text.trim value.toList = []
      · simp [hblank, Sql.allTrue]
      · simp [hblank, Sql.allTrue, Option.filter]
  unfold ChronologyFilter.matches Matches
  rw [← hsearch, ← hsources]
  simp [Sql.allTrue, ChronologyQuery.filter]

def ChronologyEvent.isWall (e : ChronologyEvent) : Bool := e.activeTimestampBasis.isWallClock

/-- The matching events, each once: those with a proven instant by instant and sequence, then all
others by sequence. -/
structure Chronological (lc : Lowercase) (q : ChronologyQuery) (rows : List EventRow)
    (events : List ChronologyEvent) : Prop where
  mem : ∀ e, e ∈ events ↔ ∃ r ∈ rows, q.Matches lc r ∧ mapChronologyEvent r = .ok e
  nodup : events.Nodup
  ordered : ∃ wall orderOnly, events = wall ++ orderOnly ∧
    (∀ e ∈ wall, e.isWall = true) ∧ (∀ e ∈ orderOnly, e.isWall = false) ∧
    wall.Pairwise (fun a b => a.ts < b.ts ∨ a.ts = b.ts ∧ a.seq < b.seq) ∧
    orderOnly.Pairwise fun a b => a.seq < b.seq

theorem provesInstant_event (r : EventRow) : provesInstant r = (chronologyEvent r).isWall :=
  provesInstant_eq r

theorem Sequenced.seq_lt (h : Sequenced rows) (ha : a ∈ rows) (hb : b ∈ rows)
    (hlt : a.seq < b.seq) : (chronologyEvent a).seq < (chronologyEvent b).seq := by
  have hna := toNat_seq (h.nonneg a ha) (h.le a ha)
  have hnb := toNat_seq (h.nonneg b hb) (h.le b hb)
  rw [UInt64.lt_iff_toNat_lt]
  omega

theorem Sequenced.chronologyEvent_inj (h : Sequenced rows) (ha : a ∈ rows) (hb : b ∈ rows)
    (heq : chronologyEvent a = chronologyEvent b) : a = b := by
  have hna := toNat_seq (h.nonneg a ha) (h.le a ha)
  have hnb := toNat_seq (h.nonneg b hb) (h.le b hb)
  rw [heq] at hna
  exact h.distinct.eq_of_key ha hb (hna.symm.trans hnb)

theorem Sequenced.chronological (h : Sequenced rows) (lc : Lowercase) (q : ChronologyQuery) :
    Chronological lc q rows (chronology lc q.filter rows) := by
  have hasc : Ascending chronologyKey (chronologyRows lc q.filter rows) := h.ascending
  have hmem : ∀ r ∈ chronologyRows lc q.filter rows, r ∈ rows :=
    fun r hr => (mem_chronologyRows.mp hr).1
  refine ⟨fun e => ?_, ?_, ?_⟩
  · simp only [chronology, mem_map, mem_chronologyRows, ChronologyQuery.matches_iff]
    constructor
    · rintro ⟨r, ⟨hr, hq⟩, rfl⟩
      exact ⟨r, hr, hq, mapChronologyEvent_eq (h.nonneg r hr)⟩
    · rintro ⟨r, hr, hq, he⟩
      rw [mapChronologyEvent_eq (h.nonneg r hr)] at he
      exact ⟨r, ⟨hr, hq⟩, Except.ok.inj he⟩
  · refine List.Nodup.map_on (fun a ha b hb => ?_) hasc.nodup
    exact h.chronologyEvent_inj (hmem a ha) (hmem b hb)
  · have hwall : ∀ a ∈ chronologyRows lc q.filter rows, ∀ b ∈ chronologyRows lc q.filter rows,
        chronologyKey a < chronologyKey b → provesInstant b = true → provesInstant a = true := by
      intro a _ b _ hlt hb
      by_contra ha
      unfold chronologyKey at hlt
      rw [Prod.Lex.toLex_lt_toLex] at hlt
      simp only [wallGroup, hb, ha, if_true, if_false, Bool.false_eq_true] at hlt
      omega
    refine ⟨((chronologyRows lc q.filter rows).filter provesInstant).map chronologyEvent,
      ((chronologyRows lc q.filter rows).filter fun r => !provesInstant r).map chronologyEvent,
      ?_, ?_, ?_, ?_, ?_⟩
    · rw [← map_append, ← hasc.partition hwall, chronology]
    · intro e he
      obtain ⟨r, hr, rfl⟩ := mem_map.mp he
      rw [← provesInstant_event, (mem_filter.mp hr).2]
    · intro e he
      obtain ⟨r, hr, rfl⟩ := mem_map.mp he
      simpa [← provesInstant_event] using (mem_filter.mp hr).2
    · rw [pairwise_map]
      refine (hasc.filter _).imp_of_mem fun {a b} ha hb hlt => ?_
      obtain ⟨ha, hpa⟩ := mem_filter.mp ha
      obtain ⟨hb, hpb⟩ := mem_filter.mp hb
      simp only [chronologyKey, Prod.Lex.toLex_lt_toLex, wallGroup, axisValue, hpa, hpb, if_true,
        lt_irrefl, false_or, true_and] at hlt
      exact hlt.imp_right fun ⟨hts, hseq⟩ => ⟨hts, h.seq_lt (hmem a ha) (hmem b hb) hseq⟩
    · rw [pairwise_map]
      refine (hasc.filter _).imp_of_mem fun {a b} ha hb hlt => ?_
      obtain ⟨ha, hpa⟩ := mem_filter.mp ha
      obtain ⟨hb, hpb⟩ := mem_filter.mp hb
      rw [Bool.not_eq_true'] at hpa hpb
      refine h.seq_lt (hmem a ha) (hmem b hb) ?_
      simp only [chronologyKey, Prod.Lex.toLex_lt_toLex, wallGroup, axisValue, hpa, hpb,
        Bool.false_eq_true, if_false] at hlt
      omega

theorem countChronology_eq (lc : Lowercase) (f : ChronologyFilter) (rows : List EventRow) :
    countChronology lc f rows = ((chronology lc f rows).length,
      (chronology lc f rows).countP fun e => !e.isWall) := by
  have hperm := perm_insertionSort (fun a b => chronologyLe a b = true)
    (rows.filter (f.matches lc))
  have hlen : (chronology lc f rows).length = rows.countP (f.matches lc) := by
    rw [chronology, length_map, chronologyRows, hperm.length_eq, countP_eq_length_filter]
  have hcount : (chronology lc f rows).countP (fun e => !e.isWall) =
      rows.countP fun r => f.matches lc r && wallGroup r == 1 := by
    rw [chronology, countP_map, chronologyRows, hperm.countP_eq, countP_filter]
    refine countP_congr fun r _ => ?_
    simp only [Function.comp, wallGroup, provesInstant_event]
    cases (chronologyEvent r).isWall <;> simp
  rw [countChronology, hlen, hcount]

/-! ## Cursors -/

section Cursor

variable {r : EventRow} (h0 : 0 ≤ r.seq) (hle : r.seq ≤ i64Max) (revision : Nat)
  (fingerprint : String)

/-- The cursor at an event has the key of its row. -/
theorem cursor_group : (((chronologyEvent r).cursor revision fingerprint).group.toNat : Int) =
    wallGroup r := by
  unfold ChronologyEvent.cursor wallGroup
  rw [provesInstant_eq]
  show ((if (r.activeTimestampBasis.getD .legacyUnknown).isWallClock then (0 : UInt8)
    else 1).toNat : Int) = _
  split <;> rfl

include h0 hle in
theorem cursor_value : ((chronologyEvent r).cursor revision fingerprint).value = axisValue r := by
  have hseq := tryI64_seq h0 hle
  unfold ChronologyEvent.cursor axisValue
  rw [provesInstant_eq]
  show (if (r.activeTimestampBasis.getD .legacyUnknown).isWallClock then r.ts
    else (tryI64 (chronologyEvent r).seq).getD i64Max) = _
  rw [hseq]
  rfl

include h0 hle in
theorem afterClause_cursor :
    afterClause (some ((chronologyEvent r).cursor revision fingerprint)) =
      .ok fun r' => decide (chronologyKey r < chronologyKey r') := by
  have hseq : tryI64 ((chronologyEvent r).cursor revision fingerprint).seq = some r.seq :=
    tryI64_seq h0 hle
  simp only [afterClause, bind_ok, require_ok, pure_ok]
  refine ⟨r.seq, hseq, funext fun r' => ?_⟩
  unfold ChronologyCursor.before chronologyKey
  rw [cursor_group, cursor_value h0 hle, decide_eq_decide, Prod.Lex.toLex_lt_toLex,
    Prod.Lex.toLex_lt_toLex, eq_comm (a := wallGroup r'), eq_comm (a := axisValue r')]

include h0 hle in
theorem acceptCursor_cursor :
    acceptCursor revision fingerprint ((chronologyEvent r).cursor revision fingerprint) =
      .ok () := by
  have hseq : tryI64 ((chronologyEvent r).cursor revision fingerprint).seq = some r.seq :=
    tryI64_seq h0 hle
  simp only [acceptCursor, bind_ok, ensure_ok]
  refine ⟨(), rfl, (), rfl, (), ?_, ?_⟩
  · unfold ChronologyEvent.cursor
    dsimp only
    split <;> decide
  · rintro ⟨hgroup, hne⟩
    refine hne ?_
    have hone : wallGroup r = 1 := by rw [← cursor_group revision fingerprint, hgroup]; rfl
    rw [hseq, cursor_value h0 hle]
    unfold axisValue
    rw [if_neg]
    intro hp
    rw [wallGroup, if_pos hp] at hone
    omega

end Cursor

/-! ## One page -/

variable {sha256 : List UInt8 → String}

theorem chronologyLimit_pos (q : ChronologyQuery) : 1 ≤ chronologyLimit q := by
  unfold chronologyLimit defaultChronologyPage maxChronologyPage
  split <;> omega

/-- A page that shows the first of the events after its position. -/
structure ChronologyPageAt (req : ChronologyRequest) (counts : Nat × Nat)
    (after : List ChronologyEvent) (page : ChronologyPage) : Prop where
  events : page.events = after.take req.limit
  next : page.nextCursor = if after.drop req.limit = [] then none
    else (after.take req.limit).getLast?.map (·.cursor req.revision req.fingerprint)
  total : page.totalMatched = counts.1
  orderOnly : page.orderOnlyCount = counts.2

theorem pageOfChronology_at (req : ChronologyRequest) (counts : Nat × Nat)
    (after : List ChronologyEvent) :
    ChronologyPageAt req counts after (pageOfChronology req counts (after.take (req.limit + 1))) := by
  have hmore : req.limit < (after.take (req.limit + 1)).length ↔ after.drop req.limit ≠ [] := by
    rw [Keyset.lookahead_more, ne_eq, drop_eq_nil_iff, not_le]
  unfold pageOfChronology
  refine ⟨Keyset.take_lookahead, ?_, rfl, rfl⟩
  dsimp only
  rw [Keyset.take_lookahead]
  by_cases hnil : after.drop req.limit = []
  · rw [if_neg (mt hmore.mp (not_not.mpr hnil)), if_pos hnil]
  · rw [if_pos (hmore.mpr hnil), if_neg hnil]

variable {req : ChronologyRequest} {after : List EventRow}

theorem ChronologyPageAt.next_none {counts : Nat × Nat} {page : ChronologyPage}
    (h : ChronologyPageAt req counts (after.map chronologyEvent) page) (hpos : 1 ≤ req.limit) :
    page.nextCursor = none ↔ after.drop req.limit = [] := by
  have hdrop : (after.map chronologyEvent).drop req.limit = [] ↔ after.drop req.limit = [] := by
    rw [← map_drop, map_eq_nil_iff]
  rw [h.next, ← hdrop]
  constructor
  · intro hnone
    by_contra hmore
    rw [if_neg hmore, Option.map_eq_none_iff, getLast?_eq_none_iff, ← map_take,
      map_eq_nil_iff, take_eq_nil_iff] at hnone
    rcases hnone with h0 | rfl
    · omega
    · exact hmore (hdrop.mpr drop_nil)
  · intro hlast
    rw [if_pos hlast]

/-- A cursor is the one at the last event of the page. -/
theorem ChronologyPageAt.next_some {counts : Nat × Nat} {page : ChronologyPage}
    {c : ChronologyCursor} (h : ChronologyPageAt req counts (after.map chronologyEvent) page)
    (hc : page.nextCursor = some c) :
    ∃ r, (after.take req.limit).getLast? = some r ∧
      c = (chronologyEvent r).cursor req.revision req.fingerprint := by
  rw [h.next] at hc
  split at hc
  · cases hc
  · rw [← map_take, getLast?_map, Option.map_map, Option.map_eq_some_iff] at hc
    obtain ⟨r, hr, rfl⟩ := hc
    exact ⟨r, hr, rfl⟩

theorem collect_chronologyEvent {l : List EventRow} (h : ∀ r ∈ l, 0 ≤ r.seq) :
    collect mapChronologyEvent l = .ok (l.map chronologyEvent) := by
  rw [collect_ok, forall₂_map_right_iff, forall₂_same]
  exact fun r hr => mapChronologyEvent_eq (h r hr)

/-- The position of a request: the matching rows before it and after it. -/
def ContinuesAt (lc : Lowercase) (req : ChronologyRequest) (rows : List EventRow)
    (before after : List EventRow) : Prop :=
  chronologyRows lc req.filter rows = before ++ after ∧
    (req.after = none ∧ before = [] ∨ ∃ r revision fingerprint,
      before.getLast? = some r ∧ req.after = some ((chronologyEvent r).cursor revision fingerprint))

/-- A request shows the events after its position. -/
theorem Sequenced.fetchChronology_eq (h : Sequenced rows) {before : List EventRow}
    (hat : ContinuesAt lc req rows before after) (counts : Nat × Nat) :
    ∃ page, fetchChronology lc req counts rows = .ok page ∧
      ChronologyPageAt req counts (after.map chronologyEvent) page := by
  obtain ⟨hsplit, hpos⟩ := hat
  have hmem : ∀ r ∈ before ++ after, r ∈ rows := by
    intro r hr
    rw [← hsplit] at hr
    exact (mem_chronologyRows.mp hr).1
  have hafter : ∃ p, afterClause req.after = .ok p ∧
      (chronologyRows lc req.filter rows).filter p = after := by
    rcases hpos with ⟨hnone, rfl⟩ | ⟨r, revision, fingerprint, hlast, hsome⟩
    · exact ⟨fun _ => true, by rw [hnone]; rfl, by rw [filter_true, hsplit, nil_append]⟩
    · obtain ⟨before', rfl⟩ := getLast?_eq_some_iff.mp hlast
      have hr := hmem r (by simp)
      have hasc : Ascending chronologyKey (chronologyRows lc req.filter rows) := h.ascending
      rw [hsplit] at hasc
      refine ⟨_, by rw [hsome]; exact afterClause_cursor (h.nonneg r hr) (h.le r hr) _ _, ?_⟩
      rw [hsplit, hasc.filter_after]
  obtain ⟨p, hp, hfilter⟩ := hafter
  have hrows : (rows.filter fun r => req.filter.matches lc r && p r).insertionSort
      (fun a b => chronologyLe a b = true) = after := by
    have hboth : (rows.filter fun r => req.filter.matches lc r && p r) =
        (rows.filter (req.filter.matches lc)).filter p := by
      rw [filter_filter]
      exact filter_congr fun r _ => Bool.and_comm _ _
    rw [hboth, ← hfilter]
    exact Keyset.sort_select (fun _ _ => chronologyLe_iff) (h.chronologyKey_nodup _)
  have hcollect : collect mapChronologyEvent (after.take (req.limit + 1)) =
      .ok ((after.map chronologyEvent).take (req.limit + 1)) := by
    rw [← map_take]
    refine collect_chronologyEvent fun r hr => h.nonneg r (hmem r ?_)
    exact mem_append_right _ (mem_of_mem_take hr)
  refine ⟨_, ?_, pageOfChronology_at req counts _⟩
  simp only [fetchChronology, bind_ok, pure_ok]
  refine ⟨p, hp, _, ?_, rfl⟩
  rw [hrows, hcollect]

/-! ## Accepted requests -/

theorem beginChronology_ok {revision : Nat} (h : beginChronology sha256 q revision = .ok req) :
    q.filter.validate = .ok () ∧ req.filter = q.filter ∧ req.limit = chronologyLimit q ∧
      req.revision = revision ∧ req.fingerprint = chronologyFilterFingerprint sha256 q.filter ∧
      req.after = q.after ∧
      ∀ c ∈ q.after, c.revision = revision ∧ c.filterFingerprint = req.fingerprint := by
  simp only [beginChronology, bind_ok, ensureAll_ok, pure_ok, Option.mem_toList] at h
  obtain ⟨_, hvalid, _, haccept, rfl⟩ := h
  refine ⟨hvalid, rfl, rfl, rfl, rfl, rfl, fun c hc => ?_⟩
  have hcursor := haccept c hc
  simp only [acceptCursor, bind_ok, ensure_ok] at hcursor
  obtain ⟨-, hrevision, -, hfingerprint, -⟩ := hcursor
  exact ⟨hrevision, hfingerprint⟩

theorem Sequenced.beginChronology_next (h : Sequenced rows) {revision : Nat}
    (hvalid : q.filter.validate = .ok ())
    (hafter : ∀ c ∈ q.after, ∃ r ∈ rows, c = (chronologyEvent r).cursor revision
      (chronologyFilterFingerprint sha256 q.filter)) :
    beginChronology sha256 q revision = .ok
      { filter := q.filter
        limit := chronologyLimit q
        revision := revision
        fingerprint := chronologyFilterFingerprint sha256 q.filter
        after := q.after } := by
  have haccept : ensureAll (acceptCursor revision (chronologyFilterFingerprint sha256 q.filter))
      q.after.toList = .ok () := by
    rw [ensureAll_ok]
    intro c hc
    obtain ⟨r, hr, rfl⟩ := hafter c (Option.mem_toList.mp hc)
    exact acceptCursor_cursor (h.nonneg r hr) (h.le r hr) revision _
  simp only [beginChronology, bind_ok, pure_ok]
  exact ⟨(), hvalid, (), haccept, trivial⟩

/-! ## Following the cursors -/

/-- The pages from a request on, until one has no cursor. -/
def followChronology (query : ChronologyQuery → CoreResult ChronologyPage) :
    Nat → ChronologyQuery → CoreResult (List ChronologyPage)
  | 0, _ => .error "more pages than asked for"
  | fuel + 1, q => do
    let page ← query q
    if page.nextCursor.isSome then do
      let rest ← followChronology query fuel { q with after := page.nextCursor }
      pure (page :: rest)
    else pure [page]

/-- The cursors from a position on lead through everything after it. -/
theorem Sequenced.followChronology_at (h : Sequenced rows) {revision fuel : Nat}
    {before : List EventRow} (hvalid : q.filter.validate = .ok ())
    (hsplit : chronologyRows lc q.filter rows = before ++ after)
    (hpos : q.after = none ∧ before = [] ∨ ∃ r, before.getLast? = some r ∧
      q.after = some ((chronologyEvent r).cursor revision
        (chronologyFilterFingerprint sha256 q.filter))) (hfuel : after.length < fuel) :
    ∃ pages, followChronology (fun q => queryChronology lc sha256 q revision rows) fuel q =
        .ok pages ∧
      pages.flatMap ChronologyPage.events = after.map chronologyEvent ∧
      ∀ p ∈ pages, (p.totalMatched, p.orderOnlyCount) = countChronology lc q.filter rows := by
  induction fuel generalizing q before after with
  | zero => omega
  | succ fuel ih =>
    have hmem : ∀ r ∈ before ++ after, r ∈ rows := by
      intro r hr
      rw [← hsplit] at hr
      exact (mem_chronologyRows.mp hr).1
    have hafter : ∀ c ∈ q.after, ∃ r ∈ rows, c = (chronologyEvent r).cursor revision
        (chronologyFilterFingerprint sha256 q.filter) := by
      intro c hc
      rcases hpos with ⟨hnone, -⟩ | ⟨r, hlast, hsome⟩
      · rw [hnone] at hc
        cases hc
      · rw [hsome] at hc
        exact ⟨r, hmem r (mem_append_left _ (mem_of_getLast? hlast)),
          (Option.mem_some.mp hc).symm⟩
    have hbegin := h.beginChronology_next hvalid hafter
    have hcontinues : ContinuesAt lc ⟨q.filter, chronologyLimit q, revision,
        chronologyFilterFingerprint sha256 q.filter, q.after⟩ rows before after :=
      ⟨hsplit, hpos.imp_right fun ⟨r, hlast, hsome⟩ => ⟨r, _, _, hlast, hsome⟩⟩
    obtain ⟨page, hpage, hat⟩ :=
      h.fetchChronology_eq hcontinues (countChronology lc q.filter rows)
    have hquery : queryChronology lc sha256 q revision rows = .ok page := by
      simp only [queryChronology, bind_ok]
      exact ⟨_, hbegin, hpage⟩
    have hpos' := chronologyLimit_pos q
    cases hnext : page.nextCursor with
    | none =>
      have hlast : after.drop (chronologyLimit q) = [] := (hat.next_none hpos').mp hnext
      refine ⟨[page], ?_, ?_, ?_⟩
      · simp only [followChronology, bind_ok]
        exact ⟨page, hquery, by rw [hnext]; rfl⟩
      · have hall := take_append_drop (chronologyLimit q) after
        rw [hlast, append_nil] at hall
        rw [flatMap_singleton, hat.events, ← map_take, hall]
      · intro p hp
        rw [mem_singleton.mp hp, hat.total, hat.orderOnly]
    | some c =>
      -- the next request continues after the last event of this page
      obtain ⟨r, hr, rfl⟩ := hat.next_some hnext
      have hne : after.take (chronologyLimit q) ≠ [] :=
        ne_nil_of_mem (mem_of_getLast? hr)
      have hlen : chronologyLimit q < after.length := by
        by_contra hge
        have hall : after.drop (chronologyLimit q) = [] := by
          rw [drop_eq_nil_iff]
          omega
        rw [(hat.next_none hpos').mpr hall] at hnext
        cases hnext
      have hsplit' : chronologyRows lc q.filter rows =
          (before ++ after.take (chronologyLimit q)) ++ after.drop (chronologyLimit q) := by
        rw [append_assoc, take_append_drop, hsplit]
      have hr' : (before ++ after.take (chronologyLimit q)).getLast? = some r := by
        rw [getLast?_append_of_ne_nil _ hne, hr]
      obtain ⟨pages, hpages, hflat, hcounts⟩ := ih (q := { q with after := page.nextCursor })
        hvalid hsplit' (.inr ⟨r, hr', hnext⟩) (by rw [length_drop]; omega)
      refine ⟨page :: pages, ?_, ?_, ?_⟩
      · simp only [followChronology, bind_ok]
        refine ⟨page, hquery, ?_⟩
        rw [hpages, hnext]
        rfl
      · rw [flatMap_cons, hflat, hat.events, ← map_take, ← map_append,
          take_append_drop]
      · intro p hp
        rcases mem_cons.mp hp with rfl | hp
        · rw [hat.total, hat.orderOnly]
        · exact hcounts p hp

end ContextDesk.LogAnalysis
