import ContextDesk.LogAnalysis.QueryPaging
import ContextDesk.LogAnalysis.TimelineAxis

/-!
# Timelines count every event once

The two ceiling divisions of `timelineAxis` give a width and a number of buckets that together just
reach over the span (`timelineAxis_slots`), also where the second dividend saturates. So every
matching event has a bucket, no loop over the grouped counts fails, and what the loops build are
histograms of the matching events: of all of them, of each severity, and of each lane. The total of
a table stays far below the largest `u64`, so that no count saturates.
-/

namespace ContextDesk.LogAnalysis

open Lib List

/-- At most `maxBuckets` buckets of one width, which tile the span from the first timestamp to
behind the last one; every timestamp of the span lies in the bucket of its index. -/
structure AxisExact (minTs maxTs : Int) (maxBuckets : Nat) (width : Int) (count : Nat)
    (buckets : List (Int × Int)) : Prop where
  count_pos : 1 ≤ count
  count_le : count ≤ maxBuckets
  width_pos : 1 ≤ width
  length : buckets.length = count
  tiles : Tiles minTs (maxTs + 1) buckets
  slot : ∀ ts, minTs ≤ ts → ts ≤ maxTs → ∃ i < count, (ts - minTs).fdiv width = i ∧
    ∃ b, buckets[i]? = some b ∧ b.1 ≤ ts ∧ ts < b.2

/-! ## The axis -/

theorem toI64Saturating_of_fits {x : Int} (h0 : -2 ^ 63 ≤ x) (h1 : x ≤ i64Max) :
    toI64Saturating x = x := by
  unfold toI64Saturating
  omega

theorem clampBuckets_pos (n : Nat) : 1 ≤ clampBuckets n := Nat.le_max_left _ _

theorem clampBuckets_le (n : Nat) : clampBuckets n ≤ maxTimelineBuckets := by
  unfold clampBuckets maxTimelineBuckets
  omega

section Axis

variable {minTs maxTs : Int} {m : Nat}

/-- The width and the number of buckets fit the span. -/
theorem timelineAxis_slots (hm : 1 ≤ m) (hm' : m ≤ maxTimelineBuckets) (hle : minTs ≤ maxTs)
    (hfit : maxTs - minTs + maxTimelineBuckets ≤ i64Max) :
    Slots minTs (timelineAxis minTs maxTs m).1 (maxTs + 1) (timelineAxis minTs maxTs m).2 ∧
      (timelineAxis minTs maxTs m).2 ≤ m := by
  unfold maxTimelineBuckets at hm' hfit
  have hmax : (i64Max : Int) = 2 ^ 63 - 1 := rfl
  have hspan : max (saturatingAdd (saturatingSub maxTs minTs) 1) 1 = maxTs - minTs + 1 := by
    unfold saturatingAdd saturatingSub
    rw [toI64Saturating_of_fits (x := maxTs - minTs) (by omega) (by omega),
      toI64Saturating_of_fits (by omega) (by omega)]
    omega
  generalize hs : maxTs - minTs + 1 = span at hspan
  have hdividend : saturatingAdd span ((m : Int) - 1) = span + (m - 1) :=
    toI64Saturating_of_fits (by omega) (by omega)
  have hdiv : ∀ a b : Int, 0 ≤ a → 1 ≤ b → checkedDiv a b = some (a / b) := by
    intro a b ha hb
    rw [checkedDiv, if_neg (by omega), Int.tdiv_eq_ediv_of_nonneg ha]
  obtain ⟨hw, n, hn, hnm, hslots⟩ := slots_of_quotients minTs i64Max hm
    (show 1 ≤ span by omega) (by omega) rfl
  generalize hwidth : (span + ((m : Int) - 1)) / m = width at hw hn hslots
  have hwidth' : max ((checkedDiv (saturatingAdd span ((m : Int) - 1)) m).getD 1) 1 = width := by
    rw [hdividend, hdiv _ _ (by omega) (by omega), hwidth]
    exact max_eq_left hw
  have hcount : saturatingAdd span (width - 1) = min (span + (width - 1)) i64Max := by
    unfold saturatingAdd toI64Saturating
    omega
  have hn1 := hslots.pos
  have hcount' : (max 1 (min ((checkedDiv (saturatingAdd span (width - 1)) width).getD 1)
      (m : Int))).toNat = n := by
    rw [hcount, hdiv _ _ (by omega) hw, hn]
    simp only [Option.getD_some]
    omega
  have haxis : timelineAxis minTs maxTs m = (width, n) := by
    simp only [timelineAxis, hspan, hwidth', hcount']
  have hstop : minTs + span = maxTs + 1 := by omega
  rw [haxis, ← hstop]
  exact ⟨hslots, hnm⟩

theorem bucketBounds_eq {width : Int} {n i : Nat} (h : Slots minTs width (maxTs + 1) n)
    (hi : i < n) (hmin : -2 ^ 63 ≤ minTs) (hle : minTs ≤ maxTs) (hmax : maxTs < i64Max)
    (hfit : maxTs - minTs + maxTimelineBuckets ≤ i64Max) :
    bucketBounds minTs width (maxTs + 1) i = slotInterval minTs width (maxTs + 1) i := by
  have hlast : (i64Max : Int) = 2 ^ 63 - 1 := rfl
  have hw := h.width_pos
  have hneeded := h.needed
  have h0 : 0 ≤ (i : Int) * width := Int.mul_nonneg (by omega) (by omega)
  have hi' : (i : Int) * width ≤ (n - 1) * width :=
    Int.mul_le_mul_of_nonneg_right (by omega) (by omega)
  unfold maxTimelineBuckets at hfit
  have hmul : saturatingMul i width = i * width :=
    toI64Saturating_of_fits (by omega) (by omega)
  have hstart : saturatingAdd minTs (i * width) = minTs + i * width :=
    toI64Saturating_of_fits (by omega) (by omega)
  have hsucc : ((i : Int) + 1) * width = i * width + width := by ring
  unfold bucketBounds slotInterval
  rw [hmul, hstart, hsucc]
  refine Prod.ext rfl ?_
  show min (toI64Saturating (minTs + i * width + width)) (maxTs + 1) = _
  unfold toI64Saturating
  omega

theorem timelineAxis_exact (hm : 1 ≤ m) (hm' : m ≤ maxTimelineBuckets) (hmin : -2 ^ 63 ≤ minTs)
    (hle : minTs ≤ maxTs) (hmax : maxTs < i64Max)
    (hfit : maxTs - minTs + maxTimelineBuckets ≤ i64Max) :
    AxisExact minTs maxTs m (timelineAxis minTs maxTs m).1 (timelineAxis minTs maxTs m).2
      ((List.range (timelineAxis minTs maxTs m).2).map
        (bucketBounds minTs (timelineAxis minTs maxTs m).1 (maxTs + 1))) := by
  obtain ⟨hslots, hcount⟩ := timelineAxis_slots hm hm' hle hfit
  generalize timelineAxis minTs maxTs m = axis at hslots hcount
  have hbounds : (List.range axis.2).map (bucketBounds minTs axis.1 (maxTs + 1)) =
      (List.range axis.2).map (slotInterval minTs axis.1 (maxTs + 1)) :=
    map_congr_left fun i hi =>
      bucketBounds_eq hslots (mem_range.mp hi) hmin hle hmax hfit
  rw [hbounds]
  refine ⟨hslots.pos, hcount, hslots.width_pos, by simp, hslots.tiles, fun ts h0 h1 => ?_⟩
  obtain ⟨i, hi, hq, hlow, hhigh⟩ := hslots.slot h0 (show ts < maxTs + 1 by omega)
  have hw := hslots.width_pos
  refine ⟨i, hi, ?_, slotInterval minTs axis.1 (maxTs + 1) i, ?_, hlow, hhigh⟩
  · rw [Int.fdiv_eq_ediv_of_nonneg _ (by omega)]
    exact hq
  · rw [getElem?_map, getElem?_range hi]
    rfl

end Axis

/-! ## The matching events -/

def matchedRows (lc : Lowercase) (clauses : List Clause) (t : EventTable) : List EventRow :=
  t.rows.filter (satisfies lc clauses)

variable {lc : Lowercase} {t : EventTable} {clauses : List Clause}

theorem EventTable.length_le (t : EventTable) : t.rows.length ≤ u64Max := by
  have hsub : (t.rows.map EventRow.seq).toFinset ⊆ Finset.Icc 0 (i64Max : Int) := by
    intro seq hseq
    obtain ⟨r, hr, rfl⟩ := mem_map.mp (mem_toFinset.mp hseq)
    obtain ⟨e, he⟩ := t.decodes r hr
    exact Finset.mem_Icc.mpr
      ⟨(decoded_of_mapEvent (t.inColumns r hr) he).seq_nonneg, (t.inColumns r hr).seq_le⟩
  have hcard := Finset.card_le_card hsub
  rw [toFinset_card_of_nodup t.distinct, length_map, Int.card_Icc] at hcard
  unfold i64Max at hcard
  unfold u64Max
  omega

theorem matchedRows_length_le : (matchedRows lc clauses t).length ≤ u64Max :=
  (length_filter_le _ _).trans t.length_le

/-- Every span of matching events and 255 more fits in `i64`, and none is at its end. -/
structure TimelineFits (rows : List EventRow) : Prop where
  fit : ∀ r ∈ rows, ∀ r' ∈ rows, r'.ts - r.ts + maxTimelineBuckets ≤ i64Max
  max : ∀ r ∈ rows, r.ts < i64Max

/-- The first and the last timestamp of some rows. -/
structure Span (rows : List EventRow) (minTs maxTs : Int) : Prop where
  first : ∃ r ∈ rows, r.ts = minTs
  last : ∃ r ∈ rows, r.ts = maxTs
  within : ∀ r ∈ rows, minTs ≤ r.ts ∧ r.ts ≤ maxTs

theorem timelineBounds_span {rows : List EventRow} (h : rows ≠ []) : ∃ minTs maxTs,
    timelineBounds rows =
      (some minTs, some maxTs, rows.length, rows.countP EventRow.isWall) ∧
    Span rows minTs maxTs := by
  have hne : rows.map EventRow.ts ≠ [] := by simpa using h
  obtain ⟨minTs, hmin⟩ := Option.isSome_iff_exists.mp (isSome_min?_of_ne_nil hne)
  obtain ⟨maxTs, hmax⟩ := Option.isSome_iff_exists.mp (isSome_max?_of_ne_nil hne)
  refine ⟨minTs, maxTs, by rw [timelineBounds, hmin, hmax], ?_⟩
  obtain ⟨hmem, hle⟩ := min?_eq_some_iff.mp hmin
  obtain ⟨hmem', hge⟩ := max?_eq_some_iff.mp hmax
  refine ⟨mem_map.mp hmem, mem_map.mp hmem', fun r hr => ⟨?_, ?_⟩⟩
  · exact hle _ (mem_map_of_mem hr)
  · exact hge _ (mem_map_of_mem hr)

theorem count_bucket {n i : Nat} {slot : EventRow → Int} {l bucket : List EventRow}
    (h : ∀ r ∈ bucket, slot r = i) (hle : (l ++ bucket).length ≤ u64Max) :
    (histogram n slot l).modify i (saturatingCount · bucket.length) =
      histogram n slot (l ++ bucket) := by
  rw [histogram_append h]
  refine ext_getElem (by simp) fun j hj hj' => ?_
  rw [getElem_modify, getElem_modify]
  have hcount : ∀ hj : j < (histogram n slot l).length, (histogram n slot l)[j] ≤ l.length := by
    intro hj
    simp only [histogram, getElem_map]
    exact countP_le_length
  rw [length_append] at hle
  split
  · have := hcount (by simpa using hj')
    exact min_eq_left (by omega)
  · rfl

/-! ## The loops over the groups -/

section Loops

variable {rows : List EventRow} {n : Nat} {minTs width : Int}
  (hrows : rows.length ≤ u64Max)
  (hslot : ∀ r ∈ rows, 0 ≤ bucketIndex minTs width r ∧ bucketIndex minTs width r < n)

theorem checkedTimelineBucket_ok {index : Int} (h0 : 0 ≤ index) (hn : index < n) :
    checkedTimelineBucket index n = .ok index.toNat := by
  simp only [checkedTimelineBucket, bind_ok, ensure_ok, pure_ok]
  exact ⟨(), by omega, trivial⟩

theorem severityIndex_eq (lc : Lowercase) (r : EventRow) :
    ∃ severity : SharedTimelineSeverity, severityIndex lc r = severity.index := by
  unfold severityIndex
  dsimp only
  split
  · exact ⟨.error, rfl⟩
  split
  · exact ⟨.warn, rfl⟩
  split
  · exact ⟨.info, rfl⟩
  split
  · exact ⟨.debug, rfl⟩
  · exact ⟨.other, rfl⟩

theorem fromIndex_index (severity : SharedTimelineSeverity) :
    SharedTimelineSeverity.fromIndex severity.index = some severity := by
  cases severity <;> rfl

def ofSeverity (lc : Lowercase) (severity : SharedTimelineSeverity) (rows : List EventRow) :
    List EventRow :=
  rows.filter fun r => severityIndex lc r = severity.index

theorem SharedTimelineSeverity.index_inj {a b : SharedTimelineSeverity}
    (h : a.index = b.index) : a = b := by
  cases a <;> cases b <;> first | rfl | cases h

theorem modify_severity {β : Type} (F : SharedTimelineSeverity → β) (f : β → β)
    (severity : SharedTimelineSeverity) :
    (SharedTimelineSeverity.all.map F).modify severity.index f =
      SharedTimelineSeverity.all.map fun s => if s = severity then f (F s) else F s := by
  cases severity <;> rfl

include hrows hslot

/-- One group of the axis. -/
theorem severityStep (lc : Lowercase) {front back : List ((Int × Int) × List EventRow)}
    {group : (Int × Int) × List EventRow} {s : SeverityCounts}
    (hsplit : groupBy severityGroupLe
      (fun r => (bucketIndex minTs width r, severityIndex lc r)) rows = front ++ group :: back)
    (hcounts : s.counts = histogram n (bucketIndex minTs width) (front.flatMap Prod.snd))
    (hseverity : s.severityCounts = SharedTimelineSeverity.all.map fun severity =>
      histogram n (bucketIndex minTs width) (ofSeverity lc severity (front.flatMap Prod.snd))) :
    ∃ s', addSeverityGroup n s group = .ok s' ∧
      s'.counts = histogram n (bucketIndex minTs width) ((front ++ [group]).flatMap Prod.snd) ∧
      s'.severityCounts = SharedTimelineSeverity.all.map fun severity =>
        histogram n (bucketIndex minTs width)
          (ofSeverity lc severity ((front ++ [group]).flatMap Prod.snd)) := by
  obtain ⟨⟨index, raw⟩, bucket⟩ := group
  obtain ⟨hne, hkey⟩ := key_of_mem_group (hsplit ▸ mem_append_right _ mem_cons_self)
  have hle : (front.flatMap Prod.snd ++ bucket).length ≤ u64Max := by
    rw [append_cons] at hsplit
    have := length_front_le hsplit
    simp only [flatMap_append, flatMap_singleton] at this
    exact this.trans hrows
  have hindex : ∀ r ∈ bucket, bucketIndex minTs width r = index :=
    fun r hr => (Prod.mk.inj (hkey r hr).2).1
  have hraw : ∀ r ∈ bucket, severityIndex lc r = raw :=
    fun r hr => (Prod.mk.inj (hkey r hr).2).2
  obtain ⟨r, hr⟩ := exists_mem_of_ne_nil _ hne
  obtain ⟨severity, hsev⟩ := severityIndex_eq lc r
  obtain ⟨h0, hn⟩ := hslot r (hkey r hr).1
  have hcheck := checkedTimelineBucket_ok h0 hn
  rw [hindex r hr] at h0 hcheck
  rw [hraw r hr] at hsev
  subst hsev
  obtain ⟨i, rfl⟩ := Int.eq_ofNat_of_zero_le h0
  have hstep : addSeverityGroup n s ((i, severity.index), bucket) = .ok
      { counts := s.counts.modify i (saturatingCount · bucket.length)
        severityCounts := s.severityCounts.modify severity.index fun counts =>
          counts.modify i (saturatingCount · bucket.length) } := by
    simp only [addSeverityGroup, bind_ok, require_ok]
    exact ⟨_, hcheck, _, fromIndex_index severity, rfl⟩
  refine ⟨_, hstep, ?_, ?_⟩
  · rw [hcounts, count_bucket hindex hle]
    simp
  · rw [hseverity, modify_severity]
    refine map_congr_left fun sev _ => ?_
    rw [flatMap_append, flatMap_singleton]
    have hof : ofSeverity lc sev (front.flatMap Prod.snd ++ bucket) =
        ofSeverity lc sev (front.flatMap Prod.snd) ++ if sev = severity then bucket else [] := by
      rw [ofSeverity, filter_append]
      congr 1
      split
      · rename_i heq
        exact filter_eq_self.mpr fun r hr => decide_eq_true (heq ▸ hraw r hr)
      · rename_i hother
        refine filter_eq_nil_iff.mpr fun r hr h => hother ?_
        have := (hraw r hr).symm.trans (of_decide_eq_true h)
        exact (SharedTimelineSeverity.index_inj (Int.ofNat.inj this)).symm
    rw [hof]
    split
    · refine count_bucket hindex ?_
      have : (ofSeverity lc sev (front.flatMap Prod.snd)).length ≤
          (front.flatMap Prod.snd).length := length_filter_le _ _
      rw [length_append] at hle ⊢
      omega
    · rw [append_nil]

theorem severityLoop (lc : Lowercase) : ∃ s,
    (groupBy severityGroupLe (fun r => (bucketIndex minTs width r, severityIndex lc r)) rows).foldlM
      (addSeverityGroup n)
      { counts := replicate n 0
        severityCounts := SharedTimelineSeverity.all.map fun _ => replicate n 0 } = .ok s ∧
    s.counts = histogram n (bucketIndex minTs width) rows ∧
    s.severityCounts = SharedTimelineSeverity.all.map fun severity =>
      histogram n (bucketIndex minTs width) (ofSeverity lc severity rows) := by
  have hperm := groupBy_perm severityGroupLe
    (fun r => (bucketIndex minTs width r, severityIndex lc r)) rows
  obtain ⟨s, hs, hcounts, hseverity⟩ := foldlM_invariant
    (fun front (s : SeverityCounts) =>
      s.counts = histogram n (bucketIndex minTs width) (front.flatMap Prod.snd) ∧
      s.severityCounts = SharedTimelineSeverity.all.map fun severity =>
        histogram n (bucketIndex minTs width) (ofSeverity lc severity (front.flatMap Prod.snd)))
    (s := ⟨replicate n 0, SharedTimelineSeverity.all.map fun _ => replicate n 0⟩)
    ⟨histogram_nil.symm, by simp [ofSeverity, histogram_nil]⟩
    fun front group back s hsplit hP => severityStep hrows hslot lc hsplit hP.1 hP.2
  refine ⟨s, hs, hcounts.trans (histogram_perm hperm), hseverity.trans ?_⟩
  exact map_congr_left fun severity _ => histogram_perm (hperm.filter _)

theorem laneStep {front back : List (Int × List EventRow)} {group : Int × List EventRow}
    {s : LaneCounts}
    (hsplit : groupBy (fun a b => a ≤ b) (bucketIndex minTs width) rows = front ++ group :: back)
    (hcounts : s.counts = histogram n (bucketIndex minTs width) (front.flatMap Prod.snd))
    (htotal : s.totalMatched = (front.flatMap Prod.snd).length)
    (hwall : s.wallMatched = (front.flatMap Prod.snd).countP EventRow.isWall) :
    ∃ s', addLaneGroup n s group = .ok s' ∧
      s'.counts = histogram n (bucketIndex minTs width) ((front ++ [group]).flatMap Prod.snd) ∧
      s'.totalMatched = ((front ++ [group]).flatMap Prod.snd).length ∧
      s'.wallMatched = ((front ++ [group]).flatMap Prod.snd).countP EventRow.isWall := by
  obtain ⟨index, bucket⟩ := group
  obtain ⟨hne, hkey⟩ := key_of_mem_group (hsplit ▸ mem_append_right _ mem_cons_self)
  have hle : (front.flatMap Prod.snd ++ bucket).length ≤ u64Max := by
    rw [append_cons] at hsplit
    have := length_front_le hsplit
    simp only [flatMap_append, flatMap_singleton] at this
    exact this.trans hrows
  have hindex : ∀ r ∈ bucket, bucketIndex minTs width r = index := fun r hr => (hkey r hr).2
  obtain ⟨r, hr⟩ := exists_mem_of_ne_nil _ hne
  obtain ⟨h0, hn⟩ := hslot r (hkey r hr).1
  have hcheck := checkedTimelineBucket_ok h0 hn
  rw [hindex r hr] at h0 hcheck
  obtain ⟨i, rfl⟩ := Int.eq_ofNat_of_zero_le h0
  have hstep : addLaneGroup n s (i, bucket) = .ok
      { counts := s.counts.modify i (saturatingCount · bucket.length)
        totalMatched := saturatingCount s.totalMatched bucket.length
        wallMatched := saturatingCount s.wallMatched (bucket.countP EventRow.isWall) } := by
    simp only [addLaneGroup, bind_ok]
    exact ⟨_, hcheck, rfl⟩
  refine ⟨_, hstep, ?_, ?_, ?_⟩
  · rw [hcounts, count_bucket hindex hle]
    simp
  · rw [length_append] at hle
    simp only [htotal, flatMap_append, flatMap_singleton, length_append]
    exact min_eq_left hle
  · have hwalls : ((front.flatMap Prod.snd ++ bucket).countP EventRow.isWall) ≤ u64Max :=
      countP_le_length.trans hle
    rw [countP_append] at hwalls
    simp only [hwall, flatMap_append, flatMap_singleton, countP_append]
    exact min_eq_left hwalls

theorem laneLoop : ∃ s,
    (groupBy (fun a b => a ≤ b) (bucketIndex minTs width) rows).foldlM (addLaneGroup n)
      { counts := replicate n 0, totalMatched := 0, wallMatched := 0 } = .ok s ∧
    s.counts = histogram n (bucketIndex minTs width) rows ∧ s.totalMatched = rows.length := by
  have hperm := groupBy_perm (fun a b => a ≤ b) (bucketIndex minTs width) rows
  obtain ⟨s, hs, hcounts, htotal, -⟩ := foldlM_invariant
    (fun front (s : LaneCounts) =>
      s.counts = histogram n (bucketIndex minTs width) (front.flatMap Prod.snd) ∧
      s.totalMatched = (front.flatMap Prod.snd).length ∧
      s.wallMatched = (front.flatMap Prod.snd).countP EventRow.isWall)
    (s := ⟨replicate n 0, 0, 0⟩) ⟨histogram_nil.symm, rfl, rfl⟩
    fun front group back s hsplit hP => laneStep hrows hslot hsplit hP.1 hP.2.1 hP.2.2
  exact ⟨s, hs, hcounts.trans (histogram_perm hperm), htotal.trans hperm.length_eq⟩

end Loops

/-! ## Buckets with events -/

/-- The bucket of an index: its bounds, its events, and those of each level that it has. -/
structure BucketOf (minTs width spanTo : Int) (rows : List EventRow)
    (i : Nat) (b : TimelineSummaryBucket) : Prop where
  index : b.index = i
  bounds : (b.start, b.stop) = bucketBounds minTs width spanTo i
  nonempty : ∃ r ∈ rows, bucketIndex minTs width r = i
  count : b.count = rows.countP fun r => bucketIndex minTs width r = i
  level : ∀ level, b.byLevel.getD level 0 =
    rows.countP fun r => bucketIndex minTs width r = i ∧ r.level = level

structure BucketsOf (minTs width spanTo : Int) (rows : List EventRow)
    (byIndex : Std.TreeMap Nat TimelineSummaryBucket) : Prop where
  bucket : ∀ i b, byIndex[i]? = some b → BucketOf minTs width spanTo rows i b
  covered : ∀ r ∈ rows, ∃ i : Nat, bucketIndex minTs width r = i ∧ (byIndex[i]?).isSome = true

section Levels

variable {rows bucket : List EventRow} {n i : Nat} {minTs width spanTo : Int}

theorem BucketOf.append {b : TimelineSummaryBucket} (h : BucketOf minTs width spanTo rows i b)
    (hother : ∀ r ∈ bucket, bucketIndex minTs width r ≠ i) :
    BucketOf minTs width spanTo (rows ++ bucket) i b := by
  refine ⟨h.index, h.bounds, ?_, ?_, fun level => ?_⟩
  · obtain ⟨r, hr, hindex⟩ := h.nonempty
    exact ⟨r, mem_append_left _ hr, hindex⟩
  · have hnone : bucket.countP (fun r => bucketIndex minTs width r = i) = 0 :=
      countP_eq_zero.mpr fun r hr heq => hother r hr (of_decide_eq_true heq)
    rw [h.count, countP_append, hnone, Nat.add_zero]
  · have hnone : bucket.countP (fun r => bucketIndex minTs width r = i ∧ r.level = level) = 0 :=
      countP_eq_zero.mpr fun r hr heq => hother r hr (of_decide_eq_true heq).1
    rw [h.level, countP_append, hnone, Nat.add_zero]

variable {s : Std.TreeMap Nat TimelineSummaryBucket}

/-- The bucket that a group is added to, also when there is none yet. -/
theorem BucketsOf.getD (hs : BucketsOf minTs width spanTo rows s) (i : Nat)
    (b : TimelineSummaryBucket) (hb : s.getD i (emptyBucket minTs width spanTo i) = b) :
    b.index = i ∧ (b.start, b.stop) = bucketBounds minTs width spanTo i ∧
      (b.count = rows.countP fun r => bucketIndex minTs width r = i) ∧
      ∀ level, b.byLevel.getD level 0 =
        rows.countP fun r => bucketIndex minTs width r = i ∧ r.level = level := by
  rw [Std.TreeMap.getD_eq_getD_getElem?] at hb
  cases hold : s[i]? with
  | some old =>
    rw [hold] at hb
    obtain rfl : old = b := hb
    have h := hs.bucket i old hold
    exact ⟨h.index, h.bounds, h.count, h.level⟩
  | none =>
    rw [hold] at hb
    obtain rfl : emptyBucket minTs width spanTo i = b := hb
    have hnone : ∀ r ∈ rows, bucketIndex minTs width r ≠ i := by
      intro r hr heq
      obtain ⟨j, hj, hsome⟩ := hs.covered r hr
      obtain rfl : j = i := Int.ofNat.inj (hj.symm.trans heq)
      rw [hold] at hsome
      cases hsome
    refine ⟨rfl, rfl, ?_, fun level => ?_⟩
    · exact (countP_eq_zero.mpr fun r hr heq => hnone r hr (of_decide_eq_true heq)).symm
    · rw [countP_eq_zero.mpr fun r hr heq => hnone r hr (of_decide_eq_true heq).1]
      exact Std.TreeMap.getD_emptyc

/-- A group of one bucket and one level. -/
theorem BucketsOf.insert {level : String} (hs : BucketsOf minTs width spanTo rows s)
    (hne : bucket ≠ []) (hindex : ∀ r ∈ bucket, bucketIndex minTs width r = i)
    (hlevel : ∀ r ∈ bucket, r.level = level)
    (hnew : ∀ r ∈ rows, bucketIndex minTs width r = i → r.level ≠ level)
    (hle : (rows ++ bucket).length ≤ u64Max) {b : TimelineSummaryBucket}
    (hb : s.getD i (emptyBucket minTs width spanTo i) = b) :
    BucketsOf minTs width spanTo (rows ++ bucket) (s.insert i
      { b with
        count := saturatingCount b.count bucket.length
        byLevel := b.byLevel.insert level bucket.length }) := by
  obtain ⟨hi, hbounds, hcount, hlevels⟩ := hs.getD i b hb
  have hin : bucket.countP (fun r => bucketIndex minTs width r = i) = bucket.length :=
    countP_eq_length.mpr fun r hr => decide_eq_true (hindex r hr)
  refine ⟨fun j b' hj => ?_, fun r hr => ?_⟩
  · rw [Std.TreeMap.getElem?_insert] at hj
    split at hj
    · rename_i heq
      obtain rfl : i = j := Std.compare_eq_iff_eq.mp heq
      obtain rfl := Option.some.inj hj
      refine ⟨hi, hbounds, ?_, ?_, fun l => ?_⟩
      · obtain ⟨r, hr⟩ := exists_mem_of_ne_nil _ hne
        exact ⟨r, mem_append_right _ hr, hindex r hr⟩
      · rw [countP_append, hin, ← hcount]
        have : b.count ≤ rows.length := hcount ▸ countP_le_length
        rw [length_append] at hle
        exact min_eq_left (by omega)
      · rw [Std.TreeMap.getD_insert, countP_append]
        split
        · rename_i hl
          obtain rfl : level = l := Std.compare_eq_iff_eq.mp hl
          have hnone : rows.countP
              (fun r => bucketIndex minTs width r = i ∧ r.level = level) = 0 :=
            countP_eq_zero.mpr fun r hr h =>
              hnew r hr (of_decide_eq_true h).1 (of_decide_eq_true h).2
          have hall : bucket.countP
              (fun r => bucketIndex minTs width r = i ∧ r.level = level) = bucket.length :=
            countP_eq_length.mpr fun r hr => decide_eq_true ⟨hindex r hr, hlevel r hr⟩
          rw [hnone, hall, Nat.zero_add]
        · rename_i hl
          have hnone : bucket.countP (fun r => bucketIndex minTs width r = i ∧ r.level = l) = 0 := by
            refine countP_eq_zero.mpr fun r hr h => hl (Std.compare_eq_iff_eq.mpr ?_)
            exact (hlevel r hr).symm.trans (of_decide_eq_true h).2
          rw [hlevels l, hnone, Nat.add_zero]
    · rename_i hij
      have hij : i ≠ j := fun h => hij (Std.compare_eq_iff_eq.mpr h)
      refine (hs.bucket j b' hj).append fun r hr h => hij ?_
      exact Int.ofNat.inj ((hindex r hr).symm.trans h)
  · have hsome : ∀ j, (s[j]?).isSome = true ∨ i = j → ((s.insert i
        { b with
          count := saturatingCount b.count bucket.length
          byLevel := b.byLevel.insert level bucket.length })[j]?).isSome = true := by
      intro j hj
      rw [Std.TreeMap.getElem?_insert]
      split
      · rfl
      · rename_i hij
        exact hj.resolve_right fun h => hij (Std.compare_eq_iff_eq.mpr h)
    rcases mem_append.mp hr with hr | hr
    · obtain ⟨j, hj, h⟩ := hs.covered r hr
      exact ⟨j, hj, hsome j (.inl h)⟩
    · exact ⟨i, hindex r hr, hsome i (.inr rfl)⟩

variable (hrows : rows.length ≤ u64Max)
  (hslot : ∀ r ∈ rows, 0 ≤ bucketIndex minTs width r ∧ bucketIndex minTs width r < n)

include hrows hslot

/-- The loop over the groups of buckets and levels. -/
theorem levelStep {front back : List ((Int × String) × List EventRow)}
    {group : (Int × String) × List EventRow}
    (hsplit : groupBy levelGroupLe (fun r => (bucketIndex minTs width r, r.level)) rows =
      front ++ group :: back) (hs : BucketsOf minTs width spanTo (front.flatMap Prod.snd) s) :
    ∃ s', addLevelGroup minTs width spanTo n s group = .ok s' ∧
      BucketsOf minTs width spanTo ((front ++ [group]).flatMap Prod.snd) s' := by
  have hkeys : ((front ++ group :: back).map Prod.fst).Nodup := hsplit ▸ groupBy_bucketed.keys_nodup
  have hmem : ∀ g ∈ front, g ∈ groupBy levelGroupLe
      (fun r => (bucketIndex minTs width r, r.level)) rows :=
    fun g hg => hsplit ▸ mem_append_left _ hg
  obtain ⟨⟨index, level⟩, bucket⟩ := group
  obtain ⟨hne, hkey⟩ := key_of_mem_group (hsplit ▸ mem_append_right _ mem_cons_self)
  have hle : (front.flatMap Prod.snd ++ bucket).length ≤ u64Max := by
    rw [append_cons] at hsplit
    have := length_front_le hsplit
    simp only [flatMap_append, flatMap_singleton] at this
    exact this.trans hrows
  have hindex : ∀ r ∈ bucket, bucketIndex minTs width r = index :=
    fun r hr => (Prod.mk.inj (hkey r hr).2).1
  have hlevel : ∀ r ∈ bucket, r.level = level := fun r hr => (Prod.mk.inj (hkey r hr).2).2
  -- the groups have different keys, so no event of this one was counted before
  have hnew : ∀ r ∈ front.flatMap Prod.snd,
      bucketIndex minTs width r = index → r.level ≠ level := by
    intro r hr hi hl
    obtain ⟨g, hg, hrg⟩ := mem_flatMap.mp hr
    have hgkey := ((key_of_mem_group (hmem g hg)).2 r hrg).2
    rw [hi, hl] at hgkey
    rw [map_append, map_cons] at hkeys
    exact (nodup_append'.mp hkeys).2.2 (mem_map_of_mem hg)
      (hgkey ▸ mem_cons_self)
  obtain ⟨r, hr⟩ := exists_mem_of_ne_nil _ hne
  obtain ⟨h0, hn⟩ := hslot r (hkey r hr).1
  rw [hindex r hr] at h0 hn
  obtain ⟨i, rfl⟩ := Int.eq_ofNat_of_zero_le h0
  refine ⟨_, ?_, by simpa using hs.insert hne hindex hlevel hnew hle rfl⟩
  simp only [addLevelGroup, bind_ok, ensure_ok]
  exact ⟨(), by omega, rfl⟩

theorem levelLoop (spanTo : Int) : ∃ s,
    (groupBy levelGroupLe (fun r => (bucketIndex minTs width r, r.level)) rows).foldlM
      (addLevelGroup minTs width spanTo n) ∅ = .ok s ∧ BucketsOf minTs width spanTo rows s := by
  have hperm := groupBy_perm levelGroupLe (fun r => (bucketIndex minTs width r, r.level)) rows
  obtain ⟨s, hs, hbuckets⟩ := foldlM_invariant
    (fun front s => BucketsOf minTs width spanTo (front.flatMap Prod.snd) s)
    (s := ∅) ⟨fun i b h => by simp at h, fun r hr => by simp at hr⟩
    fun front group back s hsplit hP => levelStep hrows hslot hsplit hP
  refine ⟨s, hs, fun i b hb => ?_, fun r hr => hbuckets.covered r (hperm.mem_iff.mpr hr)⟩
  have h := hbuckets.bucket i b hb
  refine ⟨h.index, h.bounds, ?_, h.count.trans (hperm.countP_eq _), fun level =>
    (h.level level).trans (hperm.countP_eq _)⟩
  obtain ⟨r, hr, hi⟩ := h.nonempty
  exact ⟨r, hperm.mem_iff.mp hr, hi⟩

end Levels

/-! ## The two queries -/

/-- The axis over some rows: its span, its buckets, and the bucket of every row. -/
structure AxisOver (rows : List EventRow) (maxBuckets : Nat) (spanFrom spanTo : Option Int)
    (width : Int) (count : Nat) (buckets : List (Int × Int)) : Prop where
  span : ∃ minTs maxTs, Span rows minTs maxTs ∧ spanFrom = some minTs ∧ spanTo = some (maxTs + 1) ∧
    AxisExact minTs maxTs maxBuckets width count buckets ∧
    ∀ r ∈ rows, 0 ≤ bucketIndex minTs width r ∧ bucketIndex minTs width r < count

/-- What a timeline of the buckets with events says about the matching rows. -/
structure SummaryExact (rows : List EventRow) (maxBuckets : Nat) (s : TimelineSummary) : Prop where
  total : s.totalMatched = rows.length
  empty : rows = [] → s.buckets = []
  axis : rows ≠ [] → ∃ minTs spanTo, s.spanFrom = some minTs ∧ s.spanTo = some spanTo ∧
    AxisOver rows maxBuckets s.spanFrom s.spanTo s.bucketWidth s.bucketCount
      ((List.range s.bucketCount).map (bucketBounds minTs s.bucketWidth spanTo)) ∧
    (∀ b ∈ s.buckets, BucketOf minTs s.bucketWidth spanTo rows b.index b) ∧
    ∀ r ∈ rows, ∃ b ∈ s.buckets, bucketIndex minTs s.bucketWidth r = b.index
  ascending : (s.buckets.map TimelineSummaryBucket.index).Pairwise (· < ·)
  counts : (s.buckets.map TimelineSummaryBucket.count).sum = s.totalMatched

structure LaneExact (n total : Nat) (scope : SharedTimelineLaneScope)
    (lane : SharedTimelineLaneSummary) : Prop where
  dense : lane.counts.length = n
  counts : lane.counts.sum = lane.totalMatched
  total : scope.allSources = true → lane.totalMatched = total

/-- What a shared timeline says about the matching rows: its counts, those of the five severities
and those of every lane of all sources add up to their number. -/
structure SharedExact (rows : List EventRow) (q : SharedTimelineSummaryQuery)
    (s : SharedTimelineSummary) : Prop where
  total : s.totalMatched = rows.length
  axis : rows ≠ [] → AxisOver rows (clampBuckets q.maxBuckets) s.spanFrom s.spanTo s.bucketWidth
    s.bucketCount (s.buckets.map fun b => (b.start, b.stop))
  dense : s.counts.length = s.bucketCount
  counts : s.counts.sum = s.totalMatched
  severities : s.severitySeries.map SharedTimelineSeveritySeries.severity =
    SharedTimelineSeverity.all
  perBucket : ∀ i < s.bucketCount,
    (s.severitySeries.map fun series => series.counts.getD i 0).sum = s.counts.getD i 0
  series : (s.severitySeries.map fun series => series.counts.sum).sum = s.totalMatched
  lanes : Forall₂ (LaneExact s.bucketCount s.totalMatched) q.lanes s.lanes

section Queries

variable {rows : List EventRow} {minTs maxTs : Int}

theorem axisOver (hspan : Span rows minTs maxTs) (hfits : TimelineFits rows)
    (hmin : ∀ r ∈ rows, -2 ^ 63 ≤ r.ts) (n : Nat) :
    maxTs < i64Max ∧ AxisOver rows (clampBuckets n) (some minTs) (some (maxTs + 1))
      (timelineAxis minTs maxTs (clampBuckets n)).1 (timelineAxis minTs maxTs (clampBuckets n)).2
      ((List.range (timelineAxis minTs maxTs (clampBuckets n)).2).map
        (bucketBounds minTs (timelineAxis minTs maxTs (clampBuckets n)).1 (maxTs + 1))) := by
  obtain ⟨r, hr, rfl⟩ := hspan.first
  obtain ⟨r', hr', rfl⟩ := hspan.last
  have hle := (hspan.within r' hr').1
  refine ⟨hfits.max r' hr', ⟨_, _, hspan, rfl, rfl, ?_, fun r₁ h₁ => ?_⟩⟩
  · exact timelineAxis_exact (clampBuckets_pos n) (clampBuckets_le n) (hmin r hr) hle
      (hfits.max r' hr') (hfits.fit r hr r' hr')
  · obtain ⟨i, hi, hq, -⟩ := (timelineAxis_exact (clampBuckets_pos n) (clampBuckets_le n)
      (hmin r hr) hle (hfits.max r' hr') (hfits.fit r hr r' hr')).slot r₁.ts
      (hspan.within r₁ h₁).1 (hspan.within r₁ h₁).2
    rw [bucketIndex, hq]
    omega

end Queries

theorem matchedRows_ge (r : EventRow) (hr : r ∈ matchedRows lc clauses t) : -2 ^ 63 ≤ r.ts :=
  (t.inColumns r (mem_filter.mp hr).1).ts_ge

/-- The buckets of a loop, in the order of their indices. -/
theorem BucketsOf.list {rows : List EventRow} {minTs width spanTo : Int}
    {s : Std.TreeMap Nat TimelineSummaryBucket} (h : BucketsOf minTs width spanTo rows s) :
    (∀ b ∈ s.toList.map Prod.snd, BucketOf minTs width spanTo rows b.index b) ∧
    (∀ r ∈ rows, ∃ b ∈ s.toList.map Prod.snd, bucketIndex minTs width r = b.index) ∧
    ((s.toList.map Prod.snd).map TimelineSummaryBucket.index).Pairwise (· < ·) ∧
    ((s.toList.map Prod.snd).map TimelineSummaryBucket.count).sum = rows.length := by
  have hof : ∀ e ∈ s.toList, BucketOf minTs width spanTo rows e.1 e.2 := fun e he =>
    h.bucket e.1 e.2 (Std.TreeMap.mem_toList_iff_getElem?_eq_some.mp he)
  have hkeys : (s.toList.map Prod.snd).map TimelineSummaryBucket.index = s.keys := by
    rw [map_map, ← Std.TreeMap.map_fst_toList_eq_keys]
    exact map_congr_left fun e he => (hof e he).index
  have hcounts : (s.toList.map Prod.snd).map TimelineSummaryBucket.count =
      (s.keys.map fun k : Nat => (k : Int)).map fun k =>
        rows.countP fun r => bucketIndex minTs width r = k := by
    rw [map_map, ← Std.TreeMap.map_fst_toList_eq_keys, map_map, map_map]
    exact map_congr_left fun e he => (hof e he).count
  refine ⟨fun b hb => ?_, fun r hr => ?_, ?_, ?_⟩
  · obtain ⟨e, he, rfl⟩ := mem_map.mp hb
    rw [(hof e he).index]
    exact hof e he
  · obtain ⟨i, hi, hsome⟩ := h.covered r hr
    obtain ⟨b, hb⟩ := Option.isSome_iff_exists.mp hsome
    have hmem := Std.TreeMap.mem_toList_iff_getElem?_eq_some.mpr hb
    exact ⟨b, mem_map.mpr ⟨(i, b), hmem, rfl⟩, hi.trans (by rw [(hof _ hmem).index])⟩
  · rw [hkeys]
    exact Std.TreeMap.ordered_keys.imp fun hlt => Nat.compare_eq_lt.mp hlt
  · rw [hcounts]
    refine sum_countP_keys (Std.TreeMap.nodup_keys.map Nat.cast_injective) fun r hr => ?_
    obtain ⟨i, hi, hsome⟩ := h.covered r hr
    obtain ⟨b, hb⟩ := Option.isSome_iff_exists.mp hsome
    have hmem := Std.TreeMap.mem_toList_iff_getElem?_eq_some.mpr hb
    rw [← Std.TreeMap.map_fst_toList_eq_keys, map_map]
    exact mem_map.mpr ⟨(i, b), hmem, hi.symm⟩

theorem timelineSummary_exact {q : TimelineSummaryQuery} (hw : buildWhere lc q.filter = .ok clauses)
    (hfits : TimelineFits (matchedRows lc clauses t)) :
    ∃ s, queryTimelineSummary lc t.rows q = .ok s ∧
      SummaryExact (matchedRows lc clauses t) (clampBuckets q.maxBuckets) s := by
  by_cases hne : matchedRows lc clauses t = []
  · have hquery : queryTimelineSummary lc t.rows q = .ok
        { timeQuality := .orderOnly, spanFrom := none, spanTo := none, bucketWidth := 1
          bucketCount := 0, totalMatched := 0, buckets := [] } := by
      simp only [queryTimelineSummary, bind_ok]
      refine ⟨clauses, hw, ?_⟩
      rw [show t.rows.filter (satisfies lc clauses) = [] from hne]
      rfl
    refine ⟨_, hquery, ?_, fun _ => rfl, absurd hne, .nil, rfl⟩
    rw [hne]
    rfl
  · obtain ⟨minTs, maxTs, hbounds, hspan⟩ := timelineBounds_span hne
    obtain ⟨hmax, haxis⟩ := axisOver hspan hfits matchedRows_ge q.maxBuckets
    have hspanTo : saturatingAdd maxTs 1 = maxTs + 1 := by
      obtain ⟨r, hr, rfl⟩ := hspan.last
      have := matchedRows_ge r hr
      exact toI64Saturating_of_fits (by omega) (by omega)
    generalize hw' : timelineAxis minTs maxTs (clampBuckets q.maxBuckets) = axis at haxis
    obtain ⟨minTs', maxTs', hspan', hmin', -, -, hslot⟩ := haxis.span
    obtain rfl := Option.some.inj hmin'
    obtain ⟨byIndex, hloop, hbuckets⟩ := levelLoop matchedRows_length_le hslot (maxTs + 1)
    obtain ⟨hof, hcovered, hasc, hsum⟩ := hbuckets.list
    have hquery : queryTimelineSummary lc t.rows q = .ok
        { timeQuality := qualityFromCounts (matchedRows lc clauses t).length
            ((matchedRows lc clauses t).countP EventRow.isWall)
          spanFrom := some minTs, spanTo := some (maxTs + 1), bucketWidth := axis.1
          bucketCount := axis.2, totalMatched := (matchedRows lc clauses t).length
          buckets := byIndex.toList.map Prod.snd } := by
      simp only [queryTimelineSummary, bind_ok]
      refine ⟨clauses, hw, ?_⟩
      unfold matchedRows at hbounds hloop
      simp only [hbounds, hw', hspanTo, bind_ok]
      exact ⟨byIndex, hloop, rfl⟩
    exact ⟨_, hquery, rfl, fun h => absurd h hne,
      fun _ => ⟨minTs, maxTs + 1, rfl, rfl, haxis, hof, hcovered⟩, hasc, hsum⟩

/-! ## The lanes -/

variable {sources : List String}

theorem mem_intersectLaneSources (requested : List String) {source : String}
    (h : source ∈ intersectLaneSources sources requested) : sources = [] ∨ source ∈ sources := by
  have := (mem_filter.mp h).2
  rwa [Bool.or_eq_true, List.isEmpty_iff, contains_iff_mem] at this

theorem buildWhere_lane {f : EventQuery} (hw : buildWhere lc f = .ok clauses)
    (sources : List String) :
    ∃ laneClauses, buildWhere lc { f with sources := sources } = .ok laneClauses := by
  simp only [buildWhere, bind_ok, pure_ok] at hw
  obtain ⟨_, hcount, excluded, hexcluded, -⟩ := hw
  simp only [buildWhere, exists_bind_ok]
  exact ⟨(), hcount, excluded, hexcluded, exists_pure_ok⟩

/-- A lane selects matching events only. -/
theorem lane_subset {f : EventQuery} {laneClauses : List Clause}
    (hw : buildWhere lc f = .ok clauses)
    (hlane : buildWhere lc { f with sources := sources } = .ok laneClauses) (hne : sources ≠ [])
    (hsub : ∀ source ∈ sources, f.sources = [] ∨ source ∈ f.sources) :
    ∀ r ∈ matchedRows lc laneClauses t, r ∈ matchedRows lc clauses t := by
  intro r hr
  obtain ⟨hmem, hsat⟩ := mem_filter.mp hr
  obtain ⟨e, he⟩ := t.decodes r hmem
  have hin := t.inColumns r hmem
  have h0 := (decoded_of_mapEvent hin he).template_nonneg
  refine mem_filter.mpr ⟨hmem, (satisfies_iff hin h0 hw).mpr ?_⟩
  obtain ⟨c, hseq, hlevel, hkeyword⟩ := (satisfies_iff hin h0 hlane).mp hsat
  refine ⟨⟨c.timeFrom, c.timeTo, c.templateId, c.templateIds, c.excluded, ?_, c.services, c.hosts,
    c.traceId, c.wall⟩, hseq, hlevel, hkeyword⟩
  exact hsub r.source (c.sources.resolve_left hne)

theorem sharedLane_exact {f : EventQuery} {minTs width : Int} {n : Nat}
    (hw : buildWhere lc f = .ok clauses)
    (hslot : ∀ r ∈ matchedRows lc clauses t,
      0 ≤ bucketIndex minTs width r ∧ bucketIndex minTs width r < n)
    (hsub : ∀ source ∈ sources, f.sources = [] ∨ source ∈ f.sources) (laneIndex : Nat) :
    ∃ lane, querySharedTimelineLane lc t.rows f sources laneIndex minTs width n = .ok lane ∧
      lane.counts.length = n ∧ lane.counts.sum = lane.totalMatched := by
  by_cases hnil : sources = []
  · subst hnil
    exact ⟨_, rfl, by simp, by simp⟩
  · obtain ⟨laneClauses, hlane⟩ := buildWhere_lane hw sources
    have hslot' : ∀ r ∈ matchedRows lc laneClauses t,
        0 ≤ bucketIndex minTs width r ∧ bucketIndex minTs width r < n :=
      fun r hr => hslot r (lane_subset hw hlane hnil hsub r hr)
    obtain ⟨s, hloop, hcounts, htotal⟩ := laneLoop matchedRows_length_le hslot'
    have hquery : querySharedTimelineLane lc t.rows f sources laneIndex minTs width n = .ok
        { laneIndex := laneIndex, sourceCount := sources.length
          timeQuality := qualityFromCounts s.totalMatched s.wallMatched
          totalMatched := s.totalMatched, counts := s.counts } := by
      have hfalse : sources.isEmpty = false := by simpa using hnil
      simp only [querySharedTimelineLane, hfalse, Bool.false_eq_true, if_false, bind_ok]
      exact ⟨laneClauses, hlane, s, hloop, rfl⟩
    refine ⟨_, hquery, ?_, ?_⟩
    · simp only [hcounts, histogram_length]
    · simp only [hcounts, htotal]
      exact histogram_sum hslot'

/-! ## The severities -/

/-- Every event has one severity. -/
theorem severities_sum (lc : Lowercase) (rows : List EventRow) :
    (SharedTimelineSeverity.all.map fun severity => (ofSeverity lc severity rows).length).sum =
      rows.length := by
  have hkeys : (SharedTimelineSeverity.all.map fun s => (s.index : Int)).Nodup := by decide
  have hmem : ∀ r ∈ rows,
      severityIndex lc r ∈ SharedTimelineSeverity.all.map fun s => (s.index : Int) := by
    intro r _
    obtain ⟨severity, hsev⟩ := severityIndex_eq lc r
    rw [hsev]
    exact mem_map.mpr ⟨severity, by cases severity <;> decide, rfl⟩
  have hsum := sum_countP_keys hkeys hmem
  rw [map_map] at hsum
  rw [← hsum]
  refine congrArg List.sum (map_congr_left fun severity _ => ?_)
  exact countP_eq_length_filter.symm

section Severities

variable {rows : List EventRow} {n : Nat} {slot : EventRow → Int}

theorem severities_perBucket {i : Nat} (hi : i < n) :
    (SharedTimelineSeverity.all.map fun severity =>
      (histogram n slot (ofSeverity lc severity rows)).getD i 0).sum =
      (histogram n slot rows).getD i 0 := by
  have hget : ∀ l : List EventRow,
      (histogram n slot l).getD i 0 = (l.filter fun r => slot r = i).length := by
    intro l
    rw [histogram, getD_eq_getElem?_getD, getElem?_map, getElem?_range hi,
      ← countP_eq_length_filter]
    rfl
  rw [hget, ← severities_sum lc]
  refine congrArg List.sum (map_congr_left fun severity _ => ?_)
  rw [hget, ofSeverity, ofSeverity, filter_comm]

theorem severities_series (h : ∀ r ∈ rows, 0 ≤ slot r ∧ slot r < n) :
    (SharedTimelineSeverity.all.map fun severity =>
      (histogram n slot (ofSeverity lc severity rows)).sum).sum = rows.length := by
  rw [← severities_sum lc]
  refine congrArg List.sum (map_congr_left fun severity _ => ?_)
  exact histogram_sum fun r hr => h r (mem_of_mem_filter hr)

end Severities

section Lanes

variable {f : EventQuery} {minTs width : Int} {n total : Nat} (quality : TimeQuality)
  {counts : List Nat} (hw : buildWhere lc f = .ok clauses)
  (hslot : ∀ r ∈ matchedRows lc clauses t,
    0 ≤ bucketIndex minTs width r ∧ bucketIndex minTs width r < n)
  (hlength : counts.length = n) (hsum : counts.sum = total)

include hw hslot hlength hsum

theorem laneOfScope_exact (scope : SharedTimelineLaneScope) (k : Nat) :
    ∃ lane, laneOfScope lc t.rows f minTs width n quality total counts
        (resolveLane t.rows f scope) k = .ok lane ∧ LaneExact n total scope lane := by
  unfold laneOfScope resolveLane
  by_cases hall : scope.allSources = true
  · simp only [hall, if_true]
    exact ⟨_, rfl, hlength, hsum, fun _ => rfl⟩
  · obtain ⟨lane, hlane, hlen, htotal⟩ := sharedLane_exact hw hslot
      (fun source hs => mem_intersectLaneSources scope.sources hs) k
    simp only [hall, Bool.false_eq_true, if_false]
    exact ⟨lane, hlane, hlen, htotal, fun h => absurd h hall⟩

theorem sharedLanes_exact (scopes : List SharedTimelineLaneScope) (k : Nat) :
    ∃ lanes, collect
        (fun (scope, laneIndex) =>
          laneOfScope lc t.rows f minTs width n quality total counts scope laneIndex)
        ((scopes.map (resolveLane t.rows f)).zipIdx k) = .ok lanes ∧
      Forall₂ (LaneExact n total) scopes lanes := by
  simp only [collect_ok]
  induction scopes generalizing k with
  | nil => exact ⟨[], .nil, .nil⟩
  | cons scope scopes ih =>
    obtain ⟨lane, hlane, hexact⟩ := laneOfScope_exact quality hw hslot hlength hsum scope k
    obtain ⟨lanes, hlanes, hrest⟩ := ih (k + 1)
    exact ⟨lane :: lanes, .cons hlane hlanes, .cons hexact hrest⟩

end Lanes

theorem severitySeries_eq {s : SeverityCounts} {F : SharedTimelineSeverity → List Nat}
    (h : s.severityCounts = SharedTimelineSeverity.all.map F) :
    (SharedTimelineSeverity.all.map fun severity =>
      ({ severity := severity, counts := s.severityCounts.getD severity.index [] } :
        SharedTimelineSeveritySeries)) =
      SharedTimelineSeverity.all.map fun severity =>
        { severity := severity, counts := F severity } := by
  refine map_congr_left fun severity _ => ?_
  rw [h]
  cases severity <;> rfl

theorem sharedTimelineAxis_ok (minTs : Int) {maxTs : Int} (n : Nat) (hmax : maxTs < i64Max) :
    sharedTimelineAxis minTs maxTs n = .ok (maxTs + 1, timelineAxis minTs maxTs n) := by
  simp only [sharedTimelineAxis, bind_ok, ensure_ok, pure_ok]
  exact ⟨(), hmax, trivial⟩

theorem sharedTimeline_exact {q : SharedTimelineSummaryQuery}
    (hvalid : validateSharedTimelineQuery q = .ok ()) (hw : buildWhere lc q.filter = .ok clauses)
    (hfits : TimelineFits (matchedRows lc clauses t)) :
    ∃ s, querySharedTimelineSummary lc t.rows q = .ok s ∧
      SharedExact (matchedRows lc clauses t) q s := by
  by_cases hne : matchedRows lc clauses t = []
  · have hquery : querySharedTimelineSummary lc t.rows q =
        .ok (emptySharedTimeline (q.lanes.map (resolveLane t.rows q.filter))) := by
      simp only [querySharedTimelineSummary, bind_ok]
      refine ⟨(), hvalid, clauses, hw, ?_⟩
      rw [show t.rows.filter (satisfies lc clauses) = [] from hne]
      rfl
    have hlanes : ∀ (scopes : List SharedTimelineLaneScope) (k : Nat),
        Forall₂ (LaneExact 0 0) scopes
          (((scopes.map (resolveLane t.rows q.filter)).zipIdx k).map fun (scope, laneIndex) =>
            { laneIndex := laneIndex, sourceCount := scope.sourceCount, timeQuality := .orderOnly
              totalMatched := 0, counts := [] }) := by
      intro scopes
      induction scopes with
      | nil => exact fun k => .nil
      | cons scope scopes ih => exact fun k => .cons ⟨rfl, rfl, fun _ => rfl⟩ (ih (k + 1))
    refine ⟨_, hquery, ?_, absurd hne, rfl, rfl, rfl, fun i hi => ?_, rfl, hlanes q.lanes 0⟩
    · rw [hne]
      rfl
    · cases hi
  · obtain ⟨minTs, maxTs, hbounds, hspan⟩ := timelineBounds_span hne
    obtain ⟨hmax, haxis⟩ := axisOver hspan hfits matchedRows_ge q.maxBuckets
    have hshared := sharedTimelineAxis_ok minTs (clampBuckets q.maxBuckets) hmax
    generalize timelineAxis minTs maxTs (clampBuckets q.maxBuckets) = axis at haxis hshared
    obtain ⟨minTs', maxTs', hspan', hmin', -, -, hslot⟩ := haxis.span
    obtain rfl := Option.some.inj hmin'
    obtain ⟨s, hloop, hcounts, hseverity⟩ := severityLoop matchedRows_length_le hslot lc
    have hsum : s.counts.sum = (matchedRows lc clauses t).length := by
      rw [hcounts]
      exact histogram_sum hslot
    have hlength : s.counts.length = axis.2 := by rw [hcounts, histogram_length]
    obtain ⟨lanes, hlanes, hlanesExact⟩ := sharedLanes_exact
      (qualityFromCounts (matchedRows lc clauses t).length
        ((matchedRows lc clauses t).countP EventRow.isWall)) hw hslot hlength hsum q.lanes 0
    have hquery : querySharedTimelineSummary lc t.rows q = .ok
        { timeQuality := qualityFromCounts (matchedRows lc clauses t).length
            ((matchedRows lc clauses t).countP EventRow.isWall)
          spanFrom := some minTs, spanTo := some (maxTs + 1), bucketWidth := axis.1
          bucketCount := axis.2, totalMatched := (matchedRows lc clauses t).length
          buckets := (List.range axis.2).map fun index =>
            { index := index
              start := (bucketBounds minTs axis.1 (maxTs + 1) index).1
              stop := (bucketBounds minTs axis.1 (maxTs + 1) index).2 }
          counts := s.counts
          severitySeries := SharedTimelineSeverity.all.map fun severity =>
            { severity := severity
              counts := histogram axis.2 (bucketIndex minTs axis.1)
                (ofSeverity lc severity (matchedRows lc clauses t)) }
          lanes := lanes } := by
      simp only [querySharedTimelineSummary, bind_ok]
      refine ⟨(), hvalid, clauses, hw, ?_⟩
      unfold matchedRows at hbounds hloop hlanes
      simp only [hbounds, bind_ok]
      exact ⟨_, hshared, s, hloop, lanes, hlanes, by rw [severitySeries_eq hseverity]; rfl⟩
    refine ⟨_, hquery, rfl, fun _ => ?_, hlength, hsum, ?_, fun i hi => ?_, ?_, hlanesExact⟩
    · simpa [map_map, Function.comp_def] using haxis
    · rfl
    · simp only [map_map, hcounts]
      exact severities_perBucket hi
    · simp only [map_map]
      exact severities_series hslot

/-- Every timeline over a span that fits in `i64` and ends below its last value divides the span
without gaps, and counts every matching event exactly once. -/
theorem timelines_exact (lc : Lowercase) (t : EventTable) :
    (∀ minTs maxTs : Int, ∀ maxBuckets : Nat, -2 ^ 63 ≤ minTs → minTs ≤ maxTs →
      maxTs - minTs + maxTimelineBuckets ≤ i64Max → maxTs < i64Max → ∃ width count,
        timelineAxis minTs maxTs (clampBuckets maxBuckets) = (width, count) ∧
        sharedTimelineAxis minTs maxTs (clampBuckets maxBuckets) =
          .ok (maxTs + 1, width, count) ∧
        AxisExact minTs maxTs (clampBuckets maxBuckets) width count
          ((List.range count).map (bucketBounds minTs width (maxTs + 1))) ∧
        ∀ ts, minTs ≤ ts → ts ≤ maxTs →
          ∃ i, checkedTimelineBucket ((ts - minTs).fdiv width) count = .ok i) ∧
    (∀ q clauses, buildWhere lc q.filter = .ok clauses →
      TimelineFits (matchedRows lc clauses t) → ∃ s, queryTimelineSummary lc t.rows q = .ok s ∧
        SummaryExact (matchedRows lc clauses t) (clampBuckets q.maxBuckets) s) ∧
    ∀ q clauses, validateSharedTimelineQuery q = .ok () → buildWhere lc q.filter = .ok clauses →
      TimelineFits (matchedRows lc clauses t) → ∃ s,
        querySharedTimelineSummary lc t.rows q = .ok s ∧
        SharedExact (matchedRows lc clauses t) q s := by
  refine ⟨fun minTs maxTs maxBuckets hmin hle hfit hmax => ?_,
    fun q clauses hw hfits => timelineSummary_exact hw hfits,
    fun q clauses hvalid hw hfits => sharedTimeline_exact hvalid hw hfits⟩
  have haxis := timelineAxis_exact (clampBuckets_pos maxBuckets) (clampBuckets_le maxBuckets) hmin
    hle hmax hfit
  have hshared := sharedTimelineAxis_ok minTs (clampBuckets maxBuckets) hmax
  generalize timelineAxis minTs maxTs (clampBuckets maxBuckets) = axis at haxis hshared
  refine ⟨axis.1, axis.2, rfl, hshared, haxis, fun ts h0 h1 => ?_⟩
  obtain ⟨i, hi, hq, -⟩ := haxis.slot ts h0 h1
  exact ⟨_, checkedTimelineBucket_ok (by rw [hq]; omega) (by rw [hq]; omega)⟩

theorem timelines_exact_errors :
    (∃ width count, sharedTimelineAxis (-5) 10 (clampBuckets 4) = .ok (11, width, count)) ∧
    (∃ s, queryTimelineSummary asciiLowercase errorTable.rows
        { filter := EventQuery.default, maxBuckets := 96 } = .ok s ∧
      (s.buckets.map TimelineSummaryBucket.count).sum = s.totalMatched) ∧
    ∃ s, querySharedTimelineSummary asciiLowercase errorTable.rows
        { filter := EventQuery.default, maxBuckets := 96
          lanes := [{ allSources := true, sources := [] }] } = .ok s ∧
      s.counts.sum = s.totalMatched := by
  have hfits : TimelineFits (matchedRows asciiLowercase [] errorTable) :=
    ⟨by decide, by decide⟩
  obtain ⟨haxis, hsummary, hshared⟩ := timelines_exact asciiLowercase errorTable
  refine ⟨?_, ?_, ?_⟩
  · obtain ⟨width, count, -, h, -⟩ := haxis (-5) 10 4 (by decide) (by decide) (by decide) (by decide)
    exact ⟨width, count, h⟩
  · obtain ⟨s, hs, hexact⟩ := hsummary { filter := EventQuery.default, maxBuckets := 96 } [] rfl hfits
    exact ⟨s, hs, hexact.counts⟩
  · obtain ⟨s, hs, hexact⟩ := hshared
      { filter := EventQuery.default, maxBuckets := 96
        lanes := [{ allSources := true, sources := [] }] } [] rfl rfl hfits
    exact ⟨s, hs, hexact.counts⟩

/-- At the last value of `i64` the shared axis is refused, and the only bucket of the other
timeline is empty. -/
theorem timeline_at_end :
    sharedTimelineAxis i64Max i64Max (clampBuckets 1) =
      .error "shared timeline cannot represent an exclusive i64::MAX bound" ∧
    timelineAxis i64Max i64Max (clampBuckets 1) = (1, 1) ∧
    bucketBounds i64Max 1 (saturatingAdd i64Max 1) 0 = ((i64Max : Int), (i64Max : Int)) := by
  decide

end ContextDesk.LogAnalysis
