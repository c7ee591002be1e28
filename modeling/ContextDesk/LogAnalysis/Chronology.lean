import ContextDesk.Lib.Search
import ContextDesk.Lib.Wire
import ContextDesk.LogAnalysis.QueryFilter

/-!
# The normalized chronology

`queryChronology` pages through all events in one order: events with a proven instant first, by
instant and sequence, then all others by sequence. A cursor is stamped with the revision of the
corpus and with a digest of the filter (`chronologyFilterFingerprint`), and is refused under any
other.

A request reads the corpus three times: the revision (`beginChronology`), the counts
(`countChronology`) and the rows of the page (`fetchChronology`). `queryChronology` is a request
whose three readings see the same corpus.
-/

namespace ContextDesk.LogAnalysis

open Lib
open Lib.Utf8 (textBytes)

def defaultChronologyPage : Nat := 50

def maxChronologyPage : Nat := 200

def maxChronologySearchChars : Nat := 256

def maxChronologySources : Nat := 512

def maxChronologySourceBytes : Nat := 4096

structure ChronologyCursor where
  revision : Nat
  group : UInt8
  value : Int
  seq : UInt64
  filterFingerprint : String
  deriving DecidableEq

structure ChronologyQuery where
  search : Option String
  sources : List String
  limit : Nat
  after : Option ChronologyCursor
  deriving DecidableEq

structure ChronologyEvent where
  seq : UInt64
  ts : Int
  timestampProvenance : TimestampProvenance
  activeTimestampBasis : ActiveTimestampBasis
  unresolvedLocalTimestamp : Option String
  level : String
  message : String
  source : String
  deriving DecidableEq

structure ChronologyPage where
  events : List ChronologyEvent
  nextCursor : Option ChronologyCursor
  totalMatched : Nat
  orderOnlyCount : Nat
  timeQuality : TimeQuality
  deriving DecidableEq

def qualityFromCounts (total wall : Nat) : TimeQuality :=
  if total = 0 ∨ wall = 0 then .orderOnly else if total = wall then .wall else .mixed

/-! ## The filter -/

def normalizedSearch (search : Option String) : Option String :=
  (search.map fun value => String.ofList (Text.trim value.toList)).filter (· ≠ "")

/-- What a request asks for, whatever its cursor and its limit. -/
structure ChronologyFilter where
  search : Option String
  sources : List String
  deriving DecidableEq

def ChronologyQuery.filter (q : ChronologyQuery) : ChronologyFilter :=
  ⟨normalizedSearch q.search, sortDedup q.sources⟩

def validateChronologySource (source : String) : CoreResult Unit := do
  ensure (source ≠ "" ∧ source.utf8ByteSize ≤ maxChronologySourceBytes ∧ '\x00' ∉ source.toList)
    "chronology source identity is not bounded"
  ensure (source.toList.head? ≠ some '/' ∧ ['.', '.'] ∉ source.toList.splitOn '/')
    "chronology source identity must stay corpus-relative"

def ChronologyFilter.validate (f : ChronologyFilter) : CoreResult Unit := do
  ensure (∀ value ∈ f.search, value.length ≤ maxChronologySearchChars ∧ '\x00' ∉ value.toList)
    "chronology literal search is not bounded"
  ensure (f.sources.length ≤ maxChronologySources) "chronology source filter exceeds cap"
  ensureAll validateChronologySource f.sources

def sizedText (value : String) : List UInt8 := sized (leBytes 8) (textBytes value)

def ChronologyFilter.bytes (f : ChronologyFilter) : List UInt8 :=
  textBytes "cd-core.log-chronology-filter.v1\x00" ++
    ((match f.search with
      | none => [0]
      | some value => 1 :: sizedText value) ++
    (leBytes 8 f.sources.length ++ f.sources.flatMap sizedText))

/-- `sha256` is the digest in hexadecimal. The filter is normalized once more. -/
def chronologyFilterFingerprint (sha256 : List UInt8 → String) (f : ChronologyFilter) : String :=
  sha256 (ChronologyFilter.bytes ⟨normalizedSearch f.search, sortDedup f.sources⟩)

/-- `contains(lower(message), lower(?))` and `source IN (..)`, each if it is asked for. -/
def ChronologyFilter.matches (lc : Lowercase) (f : ChronologyFilter) (r : EventRow) : Bool :=
  Sql.allTrue
    (f.search.toList.map (fun value =>
        some (decide (lc.lower value.toList <:+: lc.lower r.message.toList))) ++
      if f.sources.isEmpty then [] else [Sql.isIn (some r.source) f.sources])

/-! ## The order -/

/-- The basis of a row proves an instant; no basis proves none. -/
def provesInstant (r : EventRow) : Bool :=
  Sql.isIn r.activeTimestampBasis [.explicitWall, .resolvedLocal] = some true

def wallGroup (r : EventRow) : Int := if provesInstant r then 0 else 1

def axisValue (r : EventRow) : Int := if provesInstant r then r.ts else r.seq

/-- `ORDER BY` the group, the axis and the sequence. -/
def chronologyLe (a b : EventRow) : Bool :=
  wallGroup a < wallGroup b ∨ (wallGroup a = wallGroup b ∧
    (axisValue a < axisValue b ∨ (axisValue a = axisValue b ∧ a.seq ≤ b.seq)))

def ChronologyCursor.before (c : ChronologyCursor) (seq : Int) (r : EventRow) : Bool :=
  (c.group.toNat : Int) < wallGroup r ∨ (wallGroup r = c.group.toNat ∧
    (c.value < axisValue r ∨ (axisValue r = c.value ∧ seq < r.seq)))

/-! ## One request -/

/-- `i64::try_from` of a sequence. -/
def tryI64 (x : UInt64) : Option Int := if x.toNat ≤ i64Max then some x.toNat else none

def chronologyLimit (q : ChronologyQuery) : Nat :=
  if q.limit = 0 then defaultChronologyPage else max 1 (min q.limit maxChronologyPage)

/-- What a request knows once it has read the revision. -/
structure ChronologyRequest where
  filter : ChronologyFilter
  limit : Nat
  revision : Nat
  fingerprint : String
  after : Option ChronologyCursor
  deriving DecidableEq

def acceptCursor (revision : Nat) (fingerprint : String) (cursor : ChronologyCursor) :
    CoreResult Unit := do
  ensure (cursor.revision = revision)
    s!"stale chronology cursor: expected revision {cursor.revision}, current {revision}"
  ensure (cursor.filterFingerprint = fingerprint)
    "chronology cursor does not match the active filters"
  ensure (cursor.group ≤ 1) "chronology cursor group is invalid"
  ensure (¬ (cursor.group = 1 ∧ tryI64 cursor.seq ≠ some cursor.value))
    "order-only chronology cursor is internally inconsistent"

def beginChronology (sha256 : List UInt8 → String) (q : ChronologyQuery) (revision : Nat) :
    CoreResult ChronologyRequest := do
  q.filter.validate
  let fingerprint := chronologyFilterFingerprint sha256 q.filter
  ensureAll (acceptCursor revision fingerprint) q.after.toList
  pure
    { filter := q.filter
      limit := chronologyLimit q
      revision := revision
      fingerprint := fingerprint
      after := q.after }

/-- All matches, and those of the second group. -/
def countChronology (lc : Lowercase) (f : ChronologyFilter) (events : List EventRow) : Nat × Nat :=
  (events.countP (f.matches lc), events.countP fun r => f.matches lc r && wallGroup r == 1)

def mapChronologyEvent (r : EventRow) : CoreResult ChronologyEvent := do
  let seq ← require (tryU64 r.seq) "chronology event sequence is invalid"
  let basis := r.activeTimestampBasis.getD .legacyUnknown
  ensure (wallGroup r = if basis.isWallClock then 0 else 1)
    "chronology event has an inconsistent time basis"
  pure
    { seq := seq
      ts := r.ts
      timestampProvenance := r.timestampProvenance.getD .legacyUnknown
      activeTimestampBasis := basis
      unresolvedLocalTimestamp := r.unresolvedLocalTimestamp
      level := r.level
      message := r.message
      source := r.source }

def ChronologyEvent.cursor (revision : Nat) (fingerprint : String) (e : ChronologyEvent) :
    ChronologyCursor where
  revision := revision
  group := if e.activeTimestampBasis.isWallClock then 0 else 1
  value := if e.activeTimestampBasis.isWallClock then e.ts else (tryI64 e.seq).getD i64Max
  seq := e.seq
  filterFingerprint := fingerprint

def pageOfChronology (req : ChronologyRequest) (counts : Nat × Nat)
    (fetched : List ChronologyEvent) : ChronologyPage :=
  let hasMore := req.limit < fetched.length
  let events := if hasMore then fetched.take req.limit else fetched
  { events := events
    nextCursor :=
      if hasMore then events.getLast?.map (·.cursor req.revision req.fingerprint) else none
    totalMatched := counts.1
    orderOnlyCount := counts.2
    timeQuality := qualityFromCounts counts.1 (counts.1 - counts.2) }

/-- The condition of the cursor on the rows of a page. -/
def afterClause (after : Option ChronologyCursor) : CoreResult (EventRow → Bool) :=
  match after with
  | none => .ok fun _ => true
  | some cursor => do
    let seq ← require (tryI64 cursor.seq) "chronology cursor sequence is invalid"
    pure (cursor.before seq)

def fetchChronology (lc : Lowercase) (req : ChronologyRequest) (counts : Nat × Nat)
    (events : List EventRow) : CoreResult ChronologyPage := do
  let after ← afterClause req.after
  let rows := (events.filter fun r => req.filter.matches lc r && after r).insertionSort
    fun a b => chronologyLe a b
  let fetched ← collect mapChronologyEvent (rows.take (req.limit + 1))
  pure (pageOfChronology req counts fetched)

/-- A request during which the corpus does not change. -/
def queryChronology (lc : Lowercase) (sha256 : List UInt8 → String) (q : ChronologyQuery)
    (revision : Nat) (events : List EventRow) : CoreResult ChronologyPage := do
  let req ← beginChronology sha256 q revision
  fetchChronology lc req (countChronology lc req.filter events) events

end ContextDesk.LogAnalysis
