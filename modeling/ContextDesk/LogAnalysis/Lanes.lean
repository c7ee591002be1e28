import Mathlib.Tactic.Ring
import ContextDesk.Lib.Spans
import ContextDesk.LogAnalysis.Query

/-!
# Lanes

Lanes of events side by side: `scrubLinked` places every lane at a time cursor, and `computeGaps`
cuts a window into buckets and returns where some lanes have events and others have none.
Arithmetic that leaves `i64` panics, which here is `none`.
-/

open List

namespace ContextDesk.LogAnalysis

open Lib Lib.Spans

structure LaneEventRef where
  seq : UInt64
  ts : Int
  deriving DecidableEq

abbrev Lane := String × List LaneEventRef

/-- A value of `i64`. -/
def InI64 (x : Int) : Prop := -2 ^ 63 ≤ x ∧ x ≤ i64Max

instance (x : Int) : Decidable (InI64 x) := inferInstanceAs (Decidable (_ ∧ _))

/-- The value, or a panic where it is none of `i64`. -/
def checkedI64 (x : Int) : Option Int := if InI64 x then some x else none

/-! ## Scrubbing -/

def linkAllowed : TimeQuality → Except String Unit
  | .wall => .ok ()
  | .mixed => .ok ()
  | .orderOnly => .error ("timestamp link requires wall-clock time; corpus is order-only " ++
      "(seq is not calendar time)")

def exactAlignmentAllowed : TimeQuality → Except String Unit
  | .wall => .ok ()
  | .mixed => .error ("exact alignment requires a reliable shared wall clock; corpus has mixed " ++
      "time quality")
  | .orderOnly =>
    .error "exact alignment requires a reliable shared wall clock; corpus is order-only"

def ByTime (events : List LaneEventRef) : Prop := events.Pairwise fun a b => a.ts ≤ b.ts

/-- What is documented of `binary_search_by_key` on the timestamps of a lane: where events have the
timestamp, it finds one of them, and which one is not said. -/
structure BinarySearch where
  byTs : List LaneEventRef → Int → Except Nat Nat
  hit : ∀ {events ts i}, ByTime events → byTs events ts = .ok i →
    ∃ e, events[i]? = some e ∧ e.ts = ts
  miss : ∀ {events ts i}, ByTime events → byTs events ts = .error i →
    (∀ e ∈ events.take i, e.ts < ts) ∧ ∀ e ∈ events.drop i, ts < e.ts

structure PeerPosition where
  laneId : String
  seq : Option UInt64
  ts : Option Int
  deltaTs : Option Int
  deriving DecidableEq

structure LinkScrubResult where
  cursorTs : Int
  peerPositions : List PeerPosition
  linked : Bool
  refuseReason : Option String
  deriving DecidableEq

section

variable (search : BinarySearch)

def nearestAtOrAfter (events : List LaneEventRef) (cursorTs : Int) : Option LaneEventRef :=
  if events = [] then none
  else
    match search.byTs events cursorTs with
    | .ok i => events[i]?
    | .error i => if i < events.length then events[i]? else events.getLast?

/-- `(e.ts - cursor_ts).abs()`. -/
def deltaTs (cursorTs : Int) (e : LaneEventRef) : Option Int :=
  (checkedI64 (e.ts - cursorTs)).bind fun delta => checkedI64 |delta|

def peerPosition (cursorTs : Int) (lane : Lane) : Option PeerPosition :=
  match nearestAtOrAfter search lane.2 cursorTs with
  | none => some ⟨lane.1, none, none, none⟩
  | some e => (deltaTs cursorTs e).map fun delta => ⟨lane.1, some e.seq, some e.ts, some delta⟩

def scrubLinked (cursorTs : Int) (lanes : List Lane) (quality : TimeQuality) :
    Option LinkScrubResult :=
  match linkAllowed quality with
  | .error reason =>
    some ⟨cursorTs, lanes.map fun lane => ⟨lane.1, none, none, none⟩, false, some reason⟩
  | .ok () => (lanes.mapM (peerPosition search cursorTs)).map fun positions =>
      ⟨cursorTs, positions, true, none⟩

end

/-! ## Gaps -/

structure GapRegion where
  tsFrom : Int
  tsTo : Int
  emptyLaneIds : List String
  filledLaneIds : List String
  deriving DecidableEq

def hasEvent (events : List LaneEventRef) (t stop : Int) : Bool :=
  events.any fun e => t ≤ e.ts && e.ts < stop

def emptyIn (lanes : List Lane) (t stop : Int) : List String :=
  (lanes.filter fun lane => !hasEvent lane.2 t stop).map (·.1)

def filledIn (lanes : List Lane) (t stop : Int) : List String :=
  (lanes.filter fun lane => hasEvent lane.2 t stop).map (·.1)

def bucketGap (lanes : List Lane) (t stop : Int) : List GapRegion :=
  if emptyIn lanes t stop ≠ [] ∧ filledIn lanes t stop ≠ [] then
    [⟨t, stop, emptyIn lanes t stop, filledIn lanes t stop⟩]
  else []

def bucketWidth (bucketSecs : Int) : Int := max bucketSecs 1

/-- The buckets from `t` on. -/
def gapsFrom (lanes : List Lane) (windowTo bucketSecs t : Int) : Option (List GapRegion) :=
  if _h : t < windowTo then
    match _hnext : checkedI64 (t + bucketWidth bucketSecs) with
    | none => none
    | some next => (gapsFrom lanes windowTo bucketSecs (min next windowTo)).map
        (bucketGap lanes t (min next windowTo) ++ ·)
  else some []
termination_by (windowTo - t).toNat
decreasing_by
  unfold checkedI64 at _hnext
  split at _hnext
  · have hwidth : 1 ≤ bucketWidth bucketSecs := le_max_right _ _
    have hvalue := Option.some.inj _hnext
    omega
  · cases _hnext

/-- `last` is the last region of the output, which may still grow. -/
def mergeGapsFrom (last : GapRegion) : List GapRegion → List GapRegion
  | [] => [last]
  | g :: gaps =>
    if last.tsTo = g.tsFrom ∧ last.emptyLaneIds = g.emptyLaneIds ∧
        last.filledLaneIds = g.filledLaneIds then
      mergeGapsFrom { last with tsTo := g.tsTo } gaps
    else last :: mergeGapsFrom g gaps

def mergeAdjacentGaps : List GapRegion → List GapRegion
  | [] => []
  | g :: gaps => mergeGapsFrom g gaps

def computeGaps (lanes : List Lane) (windowFrom windowTo bucketSecs : Int) (quality : TimeQuality) :
    Option (Except String (List GapRegion)) :=
  match exactAlignmentAllowed quality with
  | .error reason => some (.error reason)
  | .ok () =>
    if lanes = [] ∨ windowTo ≤ windowFrom then some (.ok [])
    else (gapsFrom lanes windowTo bucketSecs windowFrom).map fun gaps => .ok (mergeAdjacentGaps gaps)

end ContextDesk.LogAnalysis

/-!
## The gaps are exact

Where no end of a bucket leaves `i64`, the regions of `computeGaps` are the labelled spans of the
buckets, merged where they touch. `computeGaps_exact_iff` says when that is: the last bucket has to
end within `i64` before it is cut to the window.
-/

namespace ContextDesk.LogAnalysis

open Lib Lib.Spans

variable {lanes : List Lane} {windowFrom windowTo bucketSecs t x : Int} {gaps : List GapRegion}

theorem one_le_bucketWidth (bucketSecs : Int) : 1 ≤ bucketWidth bucketSecs := le_max_right _ _

/-- The start of the bucket of `x`, where buckets are counted from `t`. -/
def bucketStart (t bucketSecs x : Int) : Int :=
  t + (x - t) / bucketWidth bucketSecs * bucketWidth bucketSecs

def bucketStop (t windowTo bucketSecs x : Int) : Int :=
  min (bucketStart t bucketSecs x + bucketWidth bucketSecs) windowTo

theorem bucketStart_first (hx : t ≤ x) (hlt : x < t + bucketWidth bucketSecs) :
    bucketStart t bucketSecs x = t := by
  rw [bucketStart, Int.ediv_eq_zero_of_lt (by omega) (by omega), Int.zero_mul, Int.add_zero]

theorem bucketStart_next (t bucketSecs x : Int) :
    bucketStart (t + bucketWidth bucketSecs) bucketSecs x = bucketStart t bucketSecs x := by
  have hwidth := one_le_bucketWidth bucketSecs
  have hdiv : (x - (t + bucketWidth bucketSecs)) / bucketWidth bucketSecs =
      (x - t) / bucketWidth bucketSecs - 1 := by
    rw [show x - (t + bucketWidth bucketSecs) = x - t + -1 * bucketWidth bucketSecs by ring,
      Int.add_mul_ediv_right _ _ (by omega)]
    rfl
  rw [bucketStart, bucketStart, hdiv]
  ring

/-! ## The loop -/

theorem checkedI64_eq_some {y : Int} : checkedI64 x = some y ↔ InI64 x ∧ x = y := by
  rw [checkedI64, Option.ite_none_right_eq_some, Option.some.injEq]

theorem checkedI64_eq_none : checkedI64 x = none ↔ ¬ InI64 x := by
  rw [checkedI64, ite_eq_right_iff]
  exact forall_congr' fun _ => iff_of_false (Option.some_ne_none x) id

/-- The last bucket of a window ends within `i64`. -/
def LastBucketFits (windowTo bucketSecs t : Int) : Prop :=
  bucketStart t bucketSecs (windowTo - 1) + bucketWidth bucketSecs ≤ i64Max

instance (windowTo bucketSecs t : Int) : Decidable (LastBucketFits windowTo bucketSecs t) :=
  inferInstanceAs (Decidable (_ ≤ _))

theorem gapsFrom_done (h : windowTo ≤ t) : gapsFrom lanes windowTo bucketSecs t = some [] := by
  rw [gapsFrom, dif_neg (by omega)]

theorem gapsFrom_step (h : t < windowTo) (hlow : -2 ^ 63 ≤ t)
    (hfits : t + bucketWidth bucketSecs ≤ i64Max) :
    gapsFrom lanes windowTo bucketSecs t =
      (gapsFrom lanes windowTo bucketSecs (min (t + bucketWidth bucketSecs) windowTo)).map
        (bucketGap lanes t (min (t + bucketWidth bucketSecs) windowTo) ++ ·) := by
  have hwidth := one_le_bucketWidth bucketSecs
  have hnext : checkedI64 (t + bucketWidth bucketSecs) = some (t + bucketWidth bucketSecs) :=
    checkedI64_eq_some.mpr ⟨⟨by omega, hfits⟩, rfl⟩
  rw [gapsFrom, dif_pos h]
  split
  · next hnone =>
    rw [hnext] at hnone
    cases hnone
  · next next' hsome =>
    rw [hnext] at hsome
    cases hsome
    rfl

theorem gapsFrom_panic (h : t < windowTo) (hfits : ¬ t + bucketWidth bucketSecs ≤ i64Max) :
    gapsFrom lanes windowTo bucketSecs t = none := by
  have hnext : checkedI64 (t + bucketWidth bucketSecs) = none :=
    checkedI64_eq_none.mpr fun h => hfits h.2
  rw [gapsFrom, dif_pos h]
  split
  · rfl
  · next hsome =>
    rw [hnext] at hsome
    cases hsome

theorem lastBucketFits_next :
    LastBucketFits windowTo bucketSecs (t + bucketWidth bucketSecs) ↔
      LastBucketFits windowTo bucketSecs t := by
  rw [LastBucketFits, LastBucketFits, bucketStart_next]

theorem lastBucketFits_last (h : t < windowTo) (hlast : windowTo ≤ t + bucketWidth bucketSecs) :
    LastBucketFits windowTo bucketSecs t ↔ t + bucketWidth bucketSecs ≤ i64Max := by
  rw [LastBucketFits, bucketStart_first (by omega) (by omega)]

theorem le_bucketStart (bucketSecs : Int) (h : t ≤ x) : t ≤ bucketStart t bucketSecs x := by
  have hwidth := one_le_bucketWidth bucketSecs
  have hdiv : 0 ≤ (x - t) / bucketWidth bucketSecs := Int.ediv_nonneg (by omega) (by omega)
  have := Int.mul_nonneg hdiv (show 0 ≤ bucketWidth bucketSecs by omega)
  unfold bucketStart
  omega

theorem gapsFrom_induction (windowTo bucketSecs : Int) {motive : Int → Prop} (done : ∀ t, windowTo ≤ t → motive t)
    (step : ∀ t, t < windowTo → motive (min (t + bucketWidth bucketSecs) windowTo) → motive t)
    (t : Int) : motive t := by
  have hwidth := one_le_bucketWidth bucketSecs
  induction hn : (windowTo - t).toNat using Nat.strong_induction_on generalizing t with
  | h n ih =>
    rcases lt_or_ge t windowTo with hlt | hge
    · exact step t hlt (ih _ (by omega) _ rfl)
    · exact done t hge

theorem gapsFrom_isSome (lanes : List Lane) (windowTo bucketSecs : Int) (hlow : -2 ^ 63 ≤ t) :
    (gapsFrom lanes windowTo bucketSecs t).isSome ↔
      windowTo ≤ t ∨ LastBucketFits windowTo bucketSecs t := by
  induction t using gapsFrom_induction windowTo bucketSecs with
  | done t h => simp [gapsFrom_done h, h]
  | step t h ih =>
    have hwidth := one_le_bucketWidth bucketSecs
    rw [or_iff_right (by omega)]
    by_cases hfits : t + bucketWidth bucketSecs ≤ i64Max
    · rw [gapsFrom_step h hlow hfits, Option.isSome_map, ih (by omega)]
      rcases lt_or_ge (t + bucketWidth bucketSecs) windowTo with hlt | hge
      · rw [min_eq_left (le_of_lt hlt), lastBucketFits_next, or_iff_right (by omega)]
      · rw [min_eq_right hge, lastBucketFits_last h hge]
        simp [hfits]
    · rw [gapsFrom_panic h hfits]
      refine ⟨fun hsome => absurd hsome (by simp), fun hlast => absurd ?_ hfits⟩
      have := le_bucketStart bucketSecs (show t ≤ windowTo - 1 by omega)
      unfold LastBucketFits at hlast
      omega

/-! ## What the regions say -/

/-- The region as a span, labelled with its lanes. -/
def GapRegion.span (g : GapRegion) : Span Int (List String × List String) :=
  ⟨g.tsFrom, g.tsTo, (g.emptyLaneIds, g.filledLaneIds)⟩

/-- The lanes without and with events between two instants, where there are both. -/
def lanesBetween (lanes : List Lane) (t stop : Int) : Option (List String × List String) :=
  if emptyIn lanes t stop ≠ [] ∧ filledIn lanes t stop ≠ [] then
    some (emptyIn lanes t stop, filledIn lanes t stop)
  else none

variable {stop : Int}

theorem mem_bucketGap {g : GapRegion} : g ∈ bucketGap lanes t stop ↔
    g.tsFrom = t ∧ g.tsTo = stop ∧ lanesBetween lanes t stop = some g.span.label := by
  obtain ⟨tsFrom, tsTo, emptyLaneIds, filledLaneIds⟩ := g
  unfold bucketGap lanesBetween
  split
  · simp [GapRegion.span, eq_comm]
  · simp

/-- Regions that cut the window from `t` on into its gaps, bucket by bucket. -/
structure Cut (lanes : List Lane) (windowTo bucketSecs t : Int) (gaps : List GapRegion) : Prop where
  consecutive : Consecutive (gaps.map GapRegion.span)
  within : ∀ g ∈ gaps, t ≤ g.tsFrom ∧ g.tsTo ≤ windowTo
  covers : ∀ x, t ≤ x → x < windowTo → ∀ c,
    (∃ s ∈ gaps.map GapRegion.span, s.Covers x ∧ s.label = c) ↔
      lanesBetween lanes (bucketStart t bucketSecs x) (bucketStop t windowTo bucketSecs x) = some c

theorem gapsFrom_eq_some (h : t < windowTo)
    (hsome : gapsFrom lanes windowTo bucketSecs t = some gaps) :
    ∃ rest, gapsFrom lanes windowTo bucketSecs (min (t + bucketWidth bucketSecs) windowTo) =
        some rest ∧
      gaps = bucketGap lanes t (min (t + bucketWidth bucketSecs) windowTo) ++ rest := by
  rw [gapsFrom, dif_pos h] at hsome
  split at hsome
  · cases hsome
  · next next' hnext =>
    obtain ⟨-, rfl⟩ := checkedI64_eq_some.mp hnext
    obtain ⟨rest, hrest, rfl⟩ := Option.map_eq_some_iff.mp hsome
    exact ⟨rest, hrest, rfl⟩

theorem bucketGap_consecutive (lanes : List Lane) (h : t < stop) :
    Consecutive ((bucketGap lanes t stop).map GapRegion.span) := by
  unfold bucketGap
  split
  · refine ⟨fun s hs => ?_, pairwise_singleton _ _⟩
    rw [mem_singleton.mp hs]
    exact h
  · exact ⟨fun s hs => absurd hs not_mem_nil, List.Pairwise.nil⟩

/-- One more bucket in front. -/
theorem Cut.cons {rest : List GapRegion} (h : t < windowTo)
    (hrest : Cut lanes windowTo bucketSecs (min (t + bucketWidth bucketSecs) windowTo) rest) :
    Cut lanes windowTo bucketSecs t
      (bucketGap lanes t (min (t + bucketWidth bucketSecs) windowTo) ++ rest) := by
  have hwidth := one_le_bucketWidth bucketSecs
  obtain ⟨stop, hstop⟩ : ∃ stop, stop = min (t + bucketWidth bucketSecs) windowTo := ⟨_, rfl⟩
  rw [← hstop] at hrest ⊢
  have hlt : t < stop := by omega
  have hfirst := bucketGap_consecutive lanes hlt
  constructor
  · rw [map_append]
    refine ⟨fun s hs => ?_, pairwise_append.mpr
      ⟨hfirst.2, hrest.consecutive.2, fun a ha b hb => ?_⟩⟩
    · rcases mem_append.mp hs with hs | hs
      · exact hfirst.1 s hs
      · exact hrest.consecutive.1 s hs
    · obtain ⟨g, hg, rfl⟩ := mem_map.mp ha
      obtain ⟨g', hg', rfl⟩ := mem_map.mp hb
      show g.tsTo ≤ g'.tsFrom
      rw [(mem_bucketGap.mp hg).2.1]
      exact (hrest.within g' hg').1
  · intro g hg
    rcases mem_append.mp hg with hg | hg
    · obtain ⟨hstart, hend, -⟩ := mem_bucketGap.mp hg
      omega
    · have := hrest.within g hg
      omega
  · intro x hx hxto c
    simp only [map_append, mem_append, or_and_right, exists_or]
    rcases lt_or_ge x stop with hin | hout
    · -- the first bucket
      have hstart : bucketStart t bucketSecs x = t := bucketStart_first hx (by omega)
      rw [bucketStop, hstart, ← hstop, or_iff_left]
      · constructor
        · rintro ⟨s, hs, -, rfl⟩
          obtain ⟨g, hg, rfl⟩ := mem_map.mp hs
          exact (mem_bucketGap.mp hg).2.2
        · intro hlabel
          have hg : (⟨t, stop, c.1, c.2⟩ : GapRegion) ∈ bucketGap lanes t stop :=
            mem_bucketGap.mpr ⟨rfl, rfl, hlabel⟩
          exact ⟨_, mem_map_of_mem hg, ⟨hx, hin⟩, rfl⟩
      · rintro ⟨s, hs, hcovers, -⟩
        obtain ⟨g, hg, rfl⟩ := mem_map.mp hs
        have hstarts := (hrest.within g hg).1
        have hcovered : g.tsFrom ≤ x := hcovers.1
        omega
    · -- a later bucket, so the first one is not cut
      have hnext : stop = t + bucketWidth bucketSecs := by omega
      have hlater := hrest.covers x hout hxto c
      rw [bucketStop, hnext, bucketStart_next, ← bucketStop] at hlater
      rw [or_iff_right, hlater]
      rintro ⟨s, hs, hcovers, -⟩
      obtain ⟨g, hg, rfl⟩ := mem_map.mp hs
      have hends := (mem_bucketGap.mp hg).2.1
      have hcovered : x < g.tsTo := hcovers.2
      omega

theorem gapsFrom_cut (h : gapsFrom lanes windowTo bucketSecs t = some gaps) :
    Cut lanes windowTo bucketSecs t gaps := by
  induction t using gapsFrom_induction windowTo bucketSecs
    generalizing gaps with
  | done t hdone =>
    rw [gapsFrom_done hdone] at h
    cases h
    exact ⟨⟨fun s hs => absurd hs not_mem_nil, List.Pairwise.nil⟩,
      fun g hg => absurd hg not_mem_nil, fun x _ _ => by omega⟩
  | step t hlt ih =>
    obtain ⟨rest, hrest, rfl⟩ := gapsFrom_eq_some hlt h
    exact (ih hrest).cons hlt

/-! ## The merged regions -/

theorem map_mergeGapsFrom (last : GapRegion) (gaps : List GapRegion) :
    (mergeGapsFrom last gaps).map GapRegion.span =
      mergeFrom last.span (gaps.map GapRegion.span) := by
  induction gaps generalizing last with
  | nil => rfl
  | cons g gaps ih =>
    have hjoins : (last.tsTo = g.tsFrom ∧ last.emptyLaneIds = g.emptyLaneIds ∧
        last.filledLaneIds = g.filledLaneIds) ↔ Joins last.span g.span := by
      simp [Joins, GapRegion.span]
    rw [mergeGapsFrom, map_cons, mergeFrom]
    by_cases h : Joins last.span g.span
    · rw [if_pos (hjoins.mpr h), if_pos h]
      exact ih _
    · rw [if_neg (mt hjoins.mp h), if_neg h, map_cons, ih]

theorem map_mergeAdjacentGaps (gaps : List GapRegion) :
    (mergeAdjacentGaps gaps).map GapRegion.span = mergeTouching (gaps.map GapRegion.span) := by
  cases gaps with
  | nil => rfl
  | cons g gaps => exact map_mergeGapsFrom g gaps

/-- Some lane has an event in the bucket of `x`, and some lane has none. -/
def GapAt (lanes : List Lane) (windowFrom windowTo bucketSecs x : Int) : Prop :=
  let t := bucketStart windowFrom bucketSecs x
  let stop := bucketStop windowFrom windowTo bucketSecs x
  (∃ lane ∈ lanes, hasEvent lane.2 t stop = true) ∧ ∃ lane ∈ lanes, hasEvent lane.2 t stop = false

structure GapsExact (lanes : List Lane) (windowFrom windowTo bucketSecs : Int)
    (gaps : List GapRegion) : Prop where
  within : ∀ g ∈ gaps, windowFrom ≤ g.tsFrom ∧ g.tsFrom < g.tsTo ∧ g.tsTo ≤ windowTo
  sorted : gaps.Pairwise fun a b => a.tsTo ≤ b.tsFrom
  maximal : ∀ a ∈ gaps, ∀ b ∈ gaps, a.tsTo = b.tsFrom →
    ¬ (a.emptyLaneIds = b.emptyLaneIds ∧ a.filledLaneIds = b.filledLaneIds)
  covered : ∀ x, windowFrom ≤ x → x < windowTo →
    ((∃ g ∈ gaps, g.tsFrom ≤ x ∧ x < g.tsTo) ↔ GapAt lanes windowFrom windowTo bucketSecs x)
  listed : ∀ g ∈ gaps, ∀ x, g.tsFrom ≤ x → x < g.tsTo →
    g.emptyLaneIds = emptyIn lanes (bucketStart windowFrom bucketSecs x)
      (bucketStop windowFrom windowTo bucketSecs x) ∧
    g.filledLaneIds = filledIn lanes (bucketStart windowFrom bucketSecs x)
      (bucketStop windowFrom windowTo bucketSecs x)

theorem filledIn_ne_nil :
    filledIn lanes t stop ≠ [] ↔ ∃ lane ∈ lanes, hasEvent lane.2 t stop = true := by
  simp [filledIn, filter_eq_nil_iff]

theorem emptyIn_ne_nil :
    emptyIn lanes t stop ≠ [] ↔ ∃ lane ∈ lanes, hasEvent lane.2 t stop = false := by
  simp [emptyIn, filter_eq_nil_iff]

theorem gapAt_iff : GapAt lanes windowFrom windowTo bucketSecs x ↔
    ∃ c, lanesBetween lanes (bucketStart windowFrom bucketSecs x)
      (bucketStop windowFrom windowTo bucketSecs x) = some c := by
  rw [GapAt, ← filledIn_ne_nil, ← emptyIn_ne_nil, and_comm, lanesBetween]
  split
  · next h => exact iff_of_true h ⟨_, rfl⟩
  · next h =>
    refine iff_of_false h ?_
    rintro ⟨c, hc⟩
    cases hc

theorem gapsExact_nil (h : lanes = [] ∨ windowTo ≤ windowFrom) :
    GapsExact lanes windowFrom windowTo bucketSecs [] where
  within g hg := absurd hg not_mem_nil
  sorted := List.Pairwise.nil
  maximal a ha := absurd ha not_mem_nil
  covered x hx hxto := by
    obtain rfl | hle := h
    · simp [GapAt]
    · omega
  listed g hg := absurd hg not_mem_nil

theorem Cut.exact_ (h : Cut lanes windowTo bucketSecs windowFrom gaps) :
    GapsExact lanes windowFrom windowTo bucketSecs (mergeAdjacentGaps gaps) := by
  have hmap := map_mergeAdjacentGaps gaps
  have hconsecutive := merge_consecutive h.consecutive
  -- what the merged regions cover, and with which lanes
  have hcovers : ∀ x c, (∃ g ∈ mergeAdjacentGaps gaps, g.span.Covers x ∧ g.span.label = c) ↔
      ∃ s ∈ gaps.map GapRegion.span, s.Covers x ∧ s.label = c := fun x c => by
    rw [← merge_covers h.consecutive, ← hmap]
    simp only [mem_map, exists_exists_and_eq_and]
  have hwindow : ∀ g ∈ mergeAdjacentGaps gaps, ∀ x, g.span.Covers x →
      windowFrom ≤ x ∧ x < windowTo := fun g hg x hx => by
    obtain ⟨s, hs, hcovered, -⟩ := (hcovers x g.span.label).mp ⟨g, hg, hx, rfl⟩
    obtain ⟨g', hg', rfl⟩ := mem_map.mp hs
    obtain ⟨hlow, hhigh⟩ := h.within g' hg'
    exact ⟨le_trans hlow hcovered.1, lt_of_lt_of_le hcovered.2 hhigh⟩
  have hnonempty : ∀ g ∈ mergeAdjacentGaps gaps, g.tsFrom < g.tsTo := fun g hg =>
    hconsecutive.1 g.span (hmap ▸ mem_map_of_mem hg)
  have hlabel : ∀ g ∈ mergeAdjacentGaps gaps, ∀ x, g.span.Covers x →
      lanesBetween lanes (bucketStart windowFrom bucketSecs x)
        (bucketStop windowFrom windowTo bucketSecs x) = some g.span.label := fun g hg x hx => by
    obtain ⟨hlow, hhigh⟩ := hwindow g hg x hx
    exact (h.covers x hlow hhigh _).mp ((hcovers x _).mp ⟨g, hg, hx, rfl⟩)
  constructor
  · intro g hg
    have hlt := hnonempty g hg
    have hfirst := hwindow g hg g.tsFrom ⟨le_refl _, hlt⟩
    have hlast := hwindow g hg (g.tsTo - 1) ⟨show g.tsFrom ≤ g.tsTo - 1 by omega,
      show g.tsTo - 1 < g.tsTo by omega⟩
    omega
  · have hsorted := hconsecutive.2
    rw [← hmap, pairwise_map] at hsorted
    exact hsorted
  · intro a ha b hb htouch hsame
    refine merge_maximal h.consecutive (hmap ▸ mem_map_of_mem ha)
      (hmap ▸ mem_map_of_mem hb) ⟨htouch, ?_⟩
    rw [GapRegion.span, GapRegion.span, hsame.1, hsame.2]
  · intro x hx hxto
    rw [gapAt_iff]
    constructor
    · rintro ⟨g, hg, hcovered⟩
      exact ⟨_, hlabel g hg x hcovered⟩
    · rintro ⟨c, hc⟩
      obtain ⟨g, hg, hcovered, -⟩ := (hcovers x c).mpr ((h.covers x hx hxto c).mpr hc)
      exact ⟨g, hg, hcovered⟩
  · intro g hg x hlow hhigh
    have hlanes := hlabel g hg x ⟨hlow, hhigh⟩
    rw [lanesBetween, Option.ite_none_right_eq_some, Option.some.injEq, GapRegion.span,
      Prod.mk.injEq] at hlanes
    exact ⟨hlanes.2.1.symm, hlanes.2.2.symm⟩

/-- The gaps are exact where the last bucket ends within `i64`, and else there is a panic. -/
theorem computeGaps_exact_iff (hfrom : InI64 windowFrom) :
    (∃ gaps, computeGaps lanes windowFrom windowTo bucketSecs .wall = some (.ok gaps) ∧
        GapsExact lanes windowFrom windowTo bucketSecs gaps) ↔
      lanes = [] ∨ windowTo ≤ windowFrom ∨ LastBucketFits windowTo bucketSecs windowFrom := by
  have hcompute : computeGaps lanes windowFrom windowTo bucketSecs .wall =
      if lanes = [] ∨ windowTo ≤ windowFrom then some (.ok [])
      else (gapsFrom lanes windowTo bucketSecs windowFrom).map fun gaps =>
        .ok (mergeAdjacentGaps gaps) := rfl
  rw [← or_assoc, hcompute]
  by_cases hnone : lanes = [] ∨ windowTo ≤ windowFrom
  · rw [if_pos hnone]
    exact iff_of_true ⟨[], rfl, gapsExact_nil hnone⟩ (.inl hnone)
  · have hsome := gapsFrom_isSome lanes windowTo bucketSecs hfrom.1
    rw [if_neg hnone, or_iff_right hnone]
    rw [or_iff_right (fun h => hnone (.inr h))] at hsome
    rw [← hsome, Option.isSome_iff_exists]
    constructor
    · rintro ⟨_, hmapped, -⟩
      obtain ⟨gaps, hgaps, -⟩ := Option.map_eq_some_iff.mp hmapped
      exact ⟨gaps, hgaps⟩
    · rintro ⟨gaps, hgaps⟩
      exact ⟨_, by rw [hgaps]; rfl, (gapsFrom_cut hgaps).exact_⟩

def holedLanes : List Lane :=
  [("a", [⟨1, 0⟩, ⟨2, 10⟩, ⟨3, 50⟩]), ("b", [⟨10, 0⟩, ⟨11, 50⟩])]

theorem holedLanes_exact : ∃ gaps, computeGaps holedLanes 0 60 10 .wall = some (.ok gaps) ∧
    GapsExact holedLanes 0 60 10 gaps :=
  (computeGaps_exact_iff (by decide)).mpr (.inr (.inr (by decide)))

/-- One bucket of the greatest width, which ends behind the window and outside `i64`. -/
theorem wide_bucket_panics : ¬ ∀ (lanes : List Lane) (windowFrom windowTo bucketSecs : Int),
    InI64 windowFrom → InI64 windowTo → InI64 bucketSecs →
      ∃ gaps, computeGaps lanes windowFrom windowTo bucketSecs .wall = some (.ok gaps) ∧
        GapsExact lanes windowFrom windowTo bucketSecs gaps := by
  intro hexact
  obtain ⟨gaps, hgaps, -⟩ := hexact [("a", [])] 1 2 i64Max (by decide) (by decide) (by decide)
  have hpanic : gapsFrom [("a", [])] 2 i64Max 1 = none := gapsFrom_panic (by decide) (by decide)
  have hnone : computeGaps [("a", [])] 1 2 i64Max .wall = none :=
    congrArg (Option.map fun gaps => Except.ok (mergeAdjacentGaps gaps)) hpanic
  rw [hnone] at hgaps
  cases hgaps

end ContextDesk.LogAnalysis
