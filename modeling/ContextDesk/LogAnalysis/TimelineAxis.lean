import ContextDesk.Lib.Histogram
import ContextDesk.LogAnalysis.Chronology

/-!
# Timelines over the matching events

A timeline divides the span of the matching events into at most 256 buckets of one width.
`queryTimelineSummary` returns the buckets with events, each with its counts by level;
`querySharedTimelineSummary` returns every bucket of the axis with dense counts: in all, of each of
the five severities, and of each requested lane of sources. A count that the database puts outside
the axis is an error.
-/

namespace ContextDesk.LogAnalysis

open Lib

def maxTimelineBuckets : Nat := 256

def maxSharedTimelineLanes : Nat := 4

def maxSharedTimelineSpecificSources : Nat := 4096

/-! ## Arithmetic of `i64` and `u64` -/

/-- The value of `i64` closest to a number. -/
def toI64Saturating (x : Int) : Int := max (-2 ^ 63) (min x i64Max)

def saturatingAdd (a b : Int) : Int := toI64Saturating (a + b)

def saturatingSub (a b : Int) : Int := toI64Saturating (a - b)

def saturatingMul (a b : Int) : Int := toI64Saturating (a * b)

/-- `i64::checked_div`. -/
def checkedDiv (a b : Int) : Option Int :=
  if b = 0 ∨ (a = -2 ^ 63 ∧ b = -1) then none else some (a.tdiv b)

/-- `u64::saturating_add`. -/
def saturatingCount (m n : Nat) : Nat := min (m + n) u64Max

/-! ## The axis -/

/-- `usize::clamp(1, MAX_TIMELINE_BUCKETS)`. -/
def clampBuckets (maxBuckets : Nat) : Nat := max 1 (min maxBuckets maxTimelineBuckets)

/-- The width of the buckets and their number. -/
def timelineAxis (minTs maxTs : Int) (maxBuckets : Nat) : Int × Nat :=
  let inclusiveSpan := max (saturatingAdd (saturatingSub maxTs minTs) 1) 1
  let bucketWidth :=
    max ((checkedDiv (saturatingAdd inclusiveSpan ((maxBuckets : Int) - 1)) maxBuckets).getD 1) 1
  let bucketCount :=
    max 1 (min ((checkedDiv (saturatingAdd inclusiveSpan (bucketWidth - 1)) bucketWidth).getD 1)
      maxBuckets)
  (bucketWidth, bucketCount.toNat)

def sharedTimelineAxis (minTs maxTs : Int) (maxBuckets : Nat) : CoreResult (Int × Int × Nat) := do
  ensure (maxTs < i64Max) "shared timeline cannot represent an exclusive i64::MAX bound"
  pure (maxTs + 1, timelineAxis minTs maxTs maxBuckets)

/-- The inclusive start and the exclusive end of a bucket. -/
def bucketBounds (minTs bucketWidth spanTo : Int) (index : Nat) : Int × Int :=
  let start := saturatingAdd minTs (saturatingMul index bucketWidth)
  (start, min (saturatingAdd start bucketWidth) spanTo)

/-- `FLOOR((ts - ?) / ?)`. -/
def bucketIndex (minTs bucketWidth : Int) (r : EventRow) : Int := (r.ts - minTs).fdiv bucketWidth

/-- `MIN(ts)`, `MAX(ts)`, `COUNT(*)`, and the number of wall-clock events. -/
def timelineBounds (rows : List EventRow) : Option Int × Option Int × Nat × Nat :=
  ((rows.map EventRow.ts).min?, (rows.map EventRow.ts).max?, rows.length,
    rows.countP EventRow.isWall)

/-! ## Buckets with events -/

structure TimelineSummaryQuery where
  filter : EventQuery
  maxBuckets : Nat

structure TimelineSummaryBucket where
  index : Nat
  start : Int
  stop : Int
  count : Nat
  byLevel : Std.TreeMap String Nat

structure TimelineSummary where
  timeQuality : TimeQuality
  spanFrom : Option Int
  spanTo : Option Int
  bucketWidth : Int
  bucketCount : Nat
  totalMatched : Nat
  buckets : List TimelineSummaryBucket

def levelGroupLe (a b : Int × String) : Bool := a.1 < b.1 ∨ (a.1 = b.1 ∧ a.2 ≤ b.2)

def emptyBucket (minTs bucketWidth spanTo : Int) (index : Nat) : TimelineSummaryBucket where
  index := index
  start := (bucketBounds minTs bucketWidth spanTo index).1
  stop := (bucketBounds minTs bucketWidth spanTo index).2
  count := 0
  byLevel := ∅

def addLevelGroup (minTs bucketWidth spanTo : Int) (bucketCount : Nat)
    (byIndex : Std.TreeMap Nat TimelineSummaryBucket) (group : (Int × String) × List EventRow) :
    CoreResult (Std.TreeMap Nat TimelineSummaryBucket) := do
  let ((rawIndex, level), rows) := group
  ensure (¬ (rawIndex < 0 ∨ (bucketCount : Int) ≤ rawIndex))
    "duckdb: timeline bucket fell outside computed span"
  let index := rawIndex.toNat
  let bucket := byIndex.getD index (emptyBucket minTs bucketWidth spanTo index)
  pure (byIndex.insert index
    { bucket with
      count := saturatingCount bucket.count rows.length
      byLevel := bucket.byLevel.insert level rows.length })

def queryTimelineSummary (lc : Lowercase) (events : List EventRow) (q : TimelineSummaryQuery) :
    CoreResult TimelineSummary := do
  let maxBuckets := clampBuckets q.maxBuckets
  let clauses ← buildWhere lc q.filter
  let rows := events.filter (satisfies lc clauses)
  match timelineBounds rows with
  | (some minTs, some maxTs, totalMatched, wallMatched) =>
    let (bucketWidth, bucketCount) := timelineAxis minTs maxTs maxBuckets
    let spanTo := saturatingAdd maxTs 1
    let byIndex ← (groupBy levelGroupLe (fun r => (bucketIndex minTs bucketWidth r, r.level)) rows).foldlM
      (addLevelGroup minTs bucketWidth spanTo bucketCount) ∅
    pure
      { timeQuality := qualityFromCounts totalMatched wallMatched
        spanFrom := some minTs
        spanTo := some spanTo
        bucketWidth := bucketWidth
        bucketCount := bucketCount
        totalMatched := totalMatched
        buckets := byIndex.toList.map Prod.snd }
  | _ =>
    pure
      { timeQuality := .orderOnly, spanFrom := none, spanTo := none, bucketWidth := 1
        bucketCount := 0, totalMatched := 0, buckets := [] }

/-! ## Severities -/

inductive SharedTimelineSeverity where
  | error
  | warn
  | info
  | debug
  | other
  deriving DecidableEq

namespace SharedTimelineSeverity

def all : List SharedTimelineSeverity := [error, warn, info, debug, other]

def index : SharedTimelineSeverity → Nat
  | error => 0
  | warn => 1
  | info => 2
  | debug => 3
  | other => 4

def fromIndex (index : Int) : Option SharedTimelineSeverity :=
  if 0 ≤ index then all[index.toNat]? else none

end SharedTimelineSeverity

/-- The `CASE` over `lower(level)`. -/
def severityIndex (lc : Lowercase) (r : EventRow) : Int :=
  let level := String.ofList (lc.lower r.level.toList)
  if level ∈ ["fatal", "critical", "crit", "severe", "error", "err"] then 0
  else if level ∈ ["warning", "warn"] then 1
  else if level ∈ ["info", "notice"] then 2
  else if level ∈ ["debug", "trace"] then 3
  else 4

/-! ## The shared axis -/

structure SharedTimelineLaneScope where
  allSources : Bool
  sources : List String
  deriving DecidableEq

structure SharedTimelineSummaryQuery where
  filter : EventQuery
  maxBuckets : Nat
  lanes : List SharedTimelineLaneScope

structure SharedTimelineAxisBucket where
  index : Nat
  start : Int
  stop : Int
  deriving DecidableEq

structure SharedTimelineSeveritySeries where
  severity : SharedTimelineSeverity
  counts : List Nat
  deriving DecidableEq

structure SharedTimelineLaneSummary where
  laneIndex : Nat
  sourceCount : Nat
  timeQuality : TimeQuality
  totalMatched : Nat
  counts : List Nat
  deriving DecidableEq

structure SharedTimelineSummary where
  timeQuality : TimeQuality
  spanFrom : Option Int
  spanTo : Option Int
  bucketWidth : Int
  bucketCount : Nat
  totalMatched : Nat
  buckets : List SharedTimelineAxisBucket
  counts : List Nat
  severitySeries : List SharedTimelineSeveritySeries
  lanes : List SharedTimelineLaneSummary
  deriving DecidableEq

def validateLane (lane : Nat × SharedTimelineLaneScope) : CoreResult Unit := do
  ensure (¬ (lane.2.allSources = true ∧ lane.2.sources ≠ []))
    s!"shared timeline lane {lane.1} cannot combine allSources with explicit sources"
  ensure (lane.2.sources.length ≤ maxSharedTimelineSpecificSources)
    s!"shared timeline lane {lane.1} source cap exceeded: {lane.2.sources.length} requested, maximum is {maxSharedTimelineSpecificSources}"

def validateSharedTimelineQuery (q : SharedTimelineSummaryQuery) : CoreResult Unit := do
  ensure (q.lanes.length ≤ maxSharedTimelineLanes)
    s!"shared timeline lane cap exceeded: {q.lanes.length} requested, maximum is {maxSharedTimelineLanes}"
  ensureAll validateLane (q.lanes.zipIdx.map Prod.swap)

structure ResolvedSharedTimelineLane where
  allSources : Bool
  sources : List String
  sourceCount : Nat

def deduplicatedSources (requested : List String) : List String :=
  requested.foldl
    (fun sources source => if sources.contains source then sources else sources ++ [source]) []

def intersectLaneSources (global requested : List String) : List String :=
  (deduplicatedSources requested).filter fun source => global.isEmpty || global.contains source

/-- `SELECT COUNT(DISTINCT source) FROM events`. -/
def queryCorpusSourceCount (events : List EventRow) : Nat :=
  (events.map EventRow.source).dedup.length

def resolveLane (events : List EventRow) (filter : EventQuery) (lane : SharedTimelineLaneScope) :
    ResolvedSharedTimelineLane :=
  if lane.allSources then
    { allSources := true
      sources := []
      sourceCount :=
        if filter.sources.isEmpty then queryCorpusSourceCount events
        else (deduplicatedSources filter.sources).length }
  else
    let sources := intersectLaneSources filter.sources lane.sources
    { allSources := false, sources := sources, sourceCount := sources.length }

def checkedTimelineBucket (rawIndex : Int) (bucketCount : Nat) : CoreResult Nat := do
  ensure (¬ (rawIndex < 0 ∨ (bucketCount : Int) ≤ rawIndex))
    "duckdb: shared timeline bucket fell outside global axis"
  pure rawIndex.toNat

/-- The counts of a lane so far, with its total and its wall-clock events. -/
structure LaneCounts where
  counts : List Nat
  totalMatched : Nat
  wallMatched : Nat

def addLaneGroup (bucketCount : Nat) (s : LaneCounts) (group : Int × List EventRow) :
    CoreResult LaneCounts := do
  let index ← checkedTimelineBucket group.1 bucketCount
  let count := group.2.length
  pure
    { counts := s.counts.modify index (saturatingCount · count)
      totalMatched := saturatingCount s.totalMatched count
      wallMatched := saturatingCount s.wallMatched (group.2.countP EventRow.isWall) }

def querySharedTimelineLane (lc : Lowercase) (events : List EventRow) (globalFilter : EventQuery)
    (sources : List String) (laneIndex : Nat) (minTs bucketWidth : Int) (bucketCount : Nat) :
    CoreResult SharedTimelineLaneSummary :=
  let counts := List.replicate bucketCount 0
  if sources.isEmpty then
    .ok
      { laneIndex := laneIndex, sourceCount := 0, timeQuality := .orderOnly, totalMatched := 0
        counts := counts }
  else do
    let clauses ← buildWhere lc { globalFilter with sources := sources }
    let rows := events.filter (satisfies lc clauses)
    let s ← (groupBy (fun a b => a ≤ b) (bucketIndex minTs bucketWidth) rows).foldlM
      (addLaneGroup bucketCount) { counts := counts, totalMatched := 0, wallMatched := 0 }
    pure
      { laneIndex := laneIndex
        sourceCount := sources.length
        timeQuality := qualityFromCounts s.totalMatched s.wallMatched
        totalMatched := s.totalMatched
        counts := s.counts }

/-- A lane of all sources has the counts of the axis. -/
def laneOfScope (lc : Lowercase) (events : List EventRow) (globalFilter : EventQuery)
    (minTs bucketWidth : Int) (bucketCount : Nat) (timeQuality : TimeQuality) (totalMatched : Nat)
    (counts : List Nat) (scope : ResolvedSharedTimelineLane) (laneIndex : Nat) :
    CoreResult SharedTimelineLaneSummary :=
  if scope.allSources then
    .ok
      { laneIndex := laneIndex
        sourceCount := scope.sourceCount
        timeQuality := timeQuality
        totalMatched := totalMatched
        counts := counts }
  else
    querySharedTimelineLane lc events globalFilter scope.sources laneIndex minTs bucketWidth
      bucketCount

/-- The counts of the axis so far, and of each severity. -/
structure SeverityCounts where
  counts : List Nat
  severityCounts : List (List Nat)

def severityGroupLe (a b : Int × Int) : Bool := a.1 < b.1 ∨ (a.1 = b.1 ∧ a.2 ≤ b.2)

def addSeverityGroup (bucketCount : Nat) (s : SeverityCounts)
    (group : (Int × Int) × List EventRow) : CoreResult SeverityCounts := do
  let index ← checkedTimelineBucket group.1.1 bucketCount
  let severity ← require (SharedTimelineSeverity.fromIndex group.1.2)
    "duckdb: shared timeline severity fell outside fixed series"
  let count := group.2.length
  pure
    { counts := s.counts.modify index (saturatingCount · count)
      severityCounts :=
        s.severityCounts.modify severity.index fun counts =>
          counts.modify index (saturatingCount · count) }

def emptySharedTimeline (lanes : List ResolvedSharedTimelineLane) : SharedTimelineSummary where
  timeQuality := .orderOnly
  spanFrom := none
  spanTo := none
  bucketWidth := 1
  bucketCount := 0
  totalMatched := 0
  buckets := []
  counts := []
  severitySeries := SharedTimelineSeverity.all.map fun severity =>
    { severity := severity, counts := [] }
  lanes := lanes.zipIdx.map fun (scope, laneIndex) =>
    { laneIndex := laneIndex, sourceCount := scope.sourceCount, timeQuality := .orderOnly
      totalMatched := 0, counts := [] }

def querySharedTimelineSummary (lc : Lowercase) (events : List EventRow)
    (q : SharedTimelineSummaryQuery) : CoreResult SharedTimelineSummary := do
  validateSharedTimelineQuery q
  let maxBuckets := clampBuckets q.maxBuckets
  let laneScopes := q.lanes.map (resolveLane events q.filter)
  let clauses ← buildWhere lc q.filter
  let rows := events.filter (satisfies lc clauses)
  match timelineBounds rows with
  | (some minTs, some maxTs, totalMatched, wallMatched) =>
    let (spanTo, bucketWidth, bucketCount) ← sharedTimelineAxis minTs maxTs maxBuckets
    let buckets := (List.range bucketCount).map fun index =>
      let bounds := bucketBounds minTs bucketWidth spanTo index
      { index := index, start := bounds.1, stop := bounds.2 }
    let s ← (groupBy severityGroupLe
        (fun r => (bucketIndex minTs bucketWidth r, severityIndex lc r)) rows).foldlM
      (addSeverityGroup bucketCount)
      { counts := List.replicate bucketCount 0
        severityCounts := SharedTimelineSeverity.all.map fun _ => List.replicate bucketCount 0 }
    let timeQuality := qualityFromCounts totalMatched wallMatched
    let lanes ← collect
      (fun (scope, laneIndex) =>
        laneOfScope lc events q.filter minTs bucketWidth bucketCount timeQuality totalMatched
          s.counts scope laneIndex)
      laneScopes.zipIdx
    pure
      { timeQuality := timeQuality
        spanFrom := some minTs
        spanTo := some spanTo
        bucketWidth := bucketWidth
        bucketCount := bucketCount
        totalMatched := totalMatched
        buckets := buckets
        counts := s.counts
        severitySeries := SharedTimelineSeverity.all.map fun severity =>
          { severity := severity, counts := s.severityCounts.getD severity.index [] }
        lanes := lanes }
  | _ => pure (emptySharedTimeline laneScopes)

end ContextDesk.LogAnalysis
