import ContextDesk.Lib.Table
import ContextDesk.Lib.Json

/-!
# Log events and their stored rows

`LogEvent` is one parsed event, `EventRow` its row in the `events` table. A `u64` is stored in a
signed column (`asI64`) and read back by `tryU64`. The time evidence of an event is three
columns: its immutable provenance, the active reading of `ts`, and the local timestamp text the
parser retained; `validateTimestampProvenance` says which combinations are events.
-/

namespace ContextDesk.LogAnalysis

open Lib

/-- A result of the core, or the text of its error. -/
abbrev CoreResult (α : Type) := Outcome α

def i64Max : Nat := 2 ^ 63 - 1

def u64Max : Nat := 2 ^ 64 - 1

/-- `x as i64`. -/
def asI64 (x : UInt64) : Int :=
  if x.toNat ≤ i64Max then x.toNat else (x.toNat : Int) - 2 ^ 64

/-- `u64::try_from` of a stored value. -/
def tryU64 (x : Int) : Option UInt64 :=
  if 0 ≤ x then some (UInt64.ofNat x.toNat) else none

theorem asI64_of_le {x : UInt64} (h : x.toNat ≤ i64Max) : asI64 x = x.toNat := by
  simp [asI64, h]

theorem asI64_injective : Function.Injective asI64 := by
  intro x y h
  have hx := x.toNat_lt
  have hy := y.toNat_lt
  apply UInt64.toNat_inj.mp
  unfold asI64 i64Max at h
  split at h <;> split at h <;> omega

theorem tryU64_eq_some {x : Int} {y : UInt64} (hx : x ≤ i64Max) (h : tryU64 x = some y) :
    asI64 y = x ∧ y.toNat ≤ i64Max := by
  unfold tryU64 at h
  split at h
  · rename_i h0
    obtain rfl := Option.some.inj h
    have hlt : x.toNat < 2 ^ 64 := by unfold i64Max at hx; omega
    have hn : (UInt64.ofNat x.toNat).toNat = x.toNat := by
      simpa using Nat.mod_eq_of_lt hlt
    have hle : x.toNat ≤ i64Max := by omega
    refine ⟨?_, by rw [hn]; exact hle⟩
    rw [asI64_of_le (by rw [hn]; exact hle), hn]
    omega
  · cases h

/-- Origin of an event's `ts`, fixed by the parser. -/
inductive TimestampProvenance where
  | explicitWallClock
  | unresolvedLocal
  | orderOnly
  | legacyUnknown
  deriving DecidableEq

/-- Active reading of an event's `ts`. -/
inductive ActiveTimestampBasis where
  | explicitWall
  | resolvedLocal
  | orderOnly
  | legacyUnknown
  deriving DecidableEq

def ActiveTimestampBasis.isWallClock : ActiveTimestampBasis → Bool
  | explicitWall | resolvedLocal => true
  | orderOnly | legacyUnknown => false

structure LogEvent where
  seq : UInt64
  ts : Int
  timestampProvenance : TimestampProvenance
  activeTimestampBasis : ActiveTimestampBasis
  unresolvedLocalTimestamp : Option String
  level : String
  service : Option String
  host : Option String
  templateId : UInt64
  params : List String
  traceId : Option String
  message : String
  source : String
  deriving DecidableEq

/-- The separately redacted source text of an ingested event. -/
structure RedactedOriginal where
  text : String
  sourceByteCount : Nat
  redactedCharCount : Nat
  truncated : Bool
  encodingNormalized : Bool
  redactionApplied : Bool
  deriving DecidableEq

/-- A row of `events`. A `NULL` provenance or basis is a row older than those columns; the six
`original_*` columns are written together. -/
structure EventRow where
  seq : Int
  ts : Int
  level : String
  service : Option String
  host : Option String
  templateId : Int
  params : List String
  traceId : Option String
  message : String
  source : String
  original : Option RedactedOriginal
  timestampProvenance : Option TimestampProvenance
  activeTimestampBasis : Option ActiveTimestampBasis
  unresolvedLocalTimestamp : Option String
  deriving DecidableEq

def EventRow.ofEvent (e : LogEvent) (original : Option RedactedOriginal) : EventRow where
  seq := asI64 e.seq
  ts := e.ts
  level := e.level
  service := e.service
  host := e.host
  templateId := asI64 e.templateId
  params := e.params
  traceId := e.traceId
  message := e.message
  source := e.source
  original := original
  timestampProvenance := some e.timestampProvenance
  activeTimestampBasis := some e.activeTimestampBasis
  unresolvedLocalTimestamp := e.unresolvedLocalTimestamp

/-- The identity of a row: sequence and source. -/
def EventRow.key (r : EventRow) : Int × String := (r.seq, r.source)

/-- Whether the row counts as wall-clock time. -/
def EventRow.isWall (r : EventRow) : Bool :=
  r.activeTimestampBasis.any ActiveTimestampBasis.isWallClock

/-- Longest retained local timestamp, in bytes. -/
def maxLocalTimestampBytes : Nat := 256

/-- A local timestamp text that may be retained. -/
def boundedLocalText (value : String) : Bool :=
  value ≠ "" ∧ value.utf8ByteSize ≤ maxLocalTimestampBytes ∧ '\x00' ∉ value.toList

def LogEvent.validateTimestampProvenance (e : LogEvent) : CoreResult Unit :=
  match e.timestampProvenance, e.activeTimestampBasis, e.unresolvedLocalTimestamp with
  | .unresolvedLocal, .orderOnly, some value | .unresolvedLocal, .resolvedLocal, some value =>
    ensure (boundedLocalText value) "unresolved-local event requires a bounded timestamp value"
  | .unresolvedLocal, _, _ => .error "unresolved-local event requires a bounded timestamp value"
  | .explicitWallClock, .explicitWall, none => .ok ()
  | .orderOnly, .orderOnly, none => .ok ()
  | .legacyUnknown, .legacyUnknown, none | .legacyUnknown, .orderOnly, none => .ok ()
  | _, _, some _ => .error "only unresolved-local events may retain a local timestamp"
  | _, _, none => .error "event timestamp origin and active basis are inconsistent"

/-- What validation leaves of an unresolved-local event: a bounded text, read by ingest order or
by a resolved instant. -/
theorem LogEvent.unresolved_of_valid {e : LogEvent}
    (h : e.validateTimestampProvenance = .ok ())
    (hp : e.timestampProvenance = .unresolvedLocal) :
    ∃ value, e.unresolvedLocalTimestamp = some value ∧ boundedLocalText value = true ∧
      (e.activeTimestampBasis = .orderOnly ∨ e.activeTimestampBasis = .resolvedLocal) := by
  unfold validateTimestampProvenance at h
  rw [hp] at h
  cases hb : e.activeTimestampBasis <;> cases hu : e.unresolvedLocalTimestamp <;>
    simp_all

end ContextDesk.LogAnalysis

/-!
## The corpus database

`CorpusDb` is what a corpus keeps in DuckDB: the `events` table, the singleton row of
`event_revision_state`, and the two tables a published revision retains for its undo
(`events_previous`, `event_revision_timestamp_changes`), each of which may be absent. Opening a
corpus creates the singleton row, so the model always has it. Columns of the row that are written
together and nulled together (`previous_*`) are one optional value.

A write runs inside a transaction: `atomically` keeps the old database on any error, and the
`commit` of the environment may fail like every other step.
-/

namespace ContextDesk.LogAnalysis

open Lib

/-- Statistics of the active events, as `event_revision_state` stores them. -/
structure RevisionStats where
  eventCount : Nat
  wallEventCount : Nat
  tsMin : Option Int
  tsMax : Option Int
  deriving DecidableEq

/-- The statistics of a table, counted from scratch. -/
def recount (events : List EventRow) : RevisionStats where
  eventCount := events.length
  wallEventCount := events.countP EventRow.isWall
  tsMin := extreme true (events.map EventRow.ts)
  tsMax := extreme false (events.map EventRow.ts)

/-- The singleton row of `event_revision_state`. -/
structure RevisionState where
  currentRevision : Nat
  currentMetadataJson : Json
  stats : RevisionStats
  previousRevision : Option Nat
  previousMetadataJson : Option Json
  previousStats : Option RevisionStats

/-- One row of `event_revision_timestamp_changes`. -/
structure TimestampChange where
  auditSchemaVersion : Nat
  revision : Nat
  seq : Int
  source : String
  previousTs : Int
  previousActiveTimestampBasis : ActiveTimestampBasis
  currentTs : Int
  currentActiveTimestampBasis : ActiveTimestampBasis
  deriving DecidableEq

structure CorpusDb where
  events : List EventRow
  state : RevisionState
  eventsPrevious : Option (List EventRow)
  timestampChanges : Option (List TimestampChange)

/-- The empty object that a corpus starts with and that an append restores. -/
def emptyMetadata : Json := .obj []

def CorpusDb.create : CorpusDb where
  events := []
  state :=
    { currentRevision := 0
      currentMetadataJson := emptyMetadata
      stats := recount []
      previousRevision := none
      previousMetadataJson := none
      previousStats := none }
  eventsPrevious := none
  timestampChanges := none

/-- The durable revision after `current`, within the signed column. -/
def advancedRevision (current : Nat) : Option Nat :=
  if current + 1 ≤ u64Max ∧ current + 1 ≤ i64Max then some (current + 1) else none

theorem advancedRevision_eq_some {current revision : Nat} :
    advancedRevision current = some revision ↔ revision = current + 1 ∧ current + 1 ≤ i64Max := by
  unfold advancedRevision i64Max u64Max
  split <;> simp_all <;> omega

/-- Count the appended table afresh, drop what an earlier revision retained, and reset the
revision metadata. -/
def advanceEventRevisionAfterAppend (db : CorpusDb) : CoreResult CorpusDb := do
  let revision ← require (advancedRevision db.state.currentRevision) "event revision overflow"
  let stats := recount db.events
  ensure (stats.wallEventCount ≤ stats.eventCount)
    "event time-quality counts are outside supported range"
  pure
    { db with
      eventsPrevious := none
      timestampChanges := none
      state :=
        { currentRevision := revision
          currentMetadataJson := emptyMetadata
          stats := stats
          previousRevision := none
          previousMetadataJson := none
          previousStats := none } }

/-- Append rows; `commit` is the outcome of the transaction's own statements. -/
def pushEventRows (commit : CoreResult Unit) (rows : List (LogEvent × Option RedactedOriginal))
    (db : CorpusDb) : CoreResult Unit × CorpusDb :=
  if rows.isEmpty then (.ok (), db)
  else
    match ensureAll (fun row => row.1.validateTimestampProvenance) rows with
    | .error e => (.error e, db)
    | .ok () =>
      atomically
        (fun db => do
          let appended ← advanceEventRevisionAfterAppend
            { db with events := db.events ++ rows.map fun row => .ofEvent row.1 row.2 }
          commit
          pure ((), appended))
        db

def pushEvents (commit : CoreResult Unit) (batch : List LogEvent) (db : CorpusDb) :
    CoreResult Unit × CorpusDb :=
  pushEventRows commit (batch.map fun event => (event, none)) db

/-- Everything an append can do: nothing, or append valid rows, recount, and forget the retained
revision and the metadata. -/
theorem pushEventRows_cases (commit : CoreResult Unit)
    (rows : List (LogEvent × Option RedactedOriginal)) (db : CorpusDb) :
    (pushEventRows commit rows db).2 = db ∨
      (pushEventRows commit rows db).1 = .ok () ∧
      (∀ row ∈ rows, row.1.validateTimestampProvenance = .ok ()) ∧
      ∃ appended, appended = db.events ++ (rows.map fun row => EventRow.ofEvent row.1 row.2) ∧
        (pushEventRows commit rows db).2 =
          { events := appended
            state :=
              { currentRevision := db.state.currentRevision + 1
                currentMetadataJson := emptyMetadata
                stats := recount appended
                previousRevision := none
                previousMetadataJson := none
                previousStats := none }
            eventsPrevious := none
            timestampChanges := none } := by
  unfold pushEventRows
  split
  · exact .inl rfl
  · split
    · exact .inl rfl
    · rename_i hvalid
      obtain ⟨a, db', hbody, hat⟩ | ⟨e, -, hat⟩ := atomically_cases
        (fun db => do
          let appended ← advanceEventRevisionAfterAppend
            { db with events := db.events ++ rows.map fun row => EventRow.ofEvent row.1 row.2 }
          commit
          pure ((), appended)) db
      · right
        rw [hat]
        simp only [advanceEventRevisionAfterAppend, bind_ok, pure_ok, require_ok, ensure_ok,
          advancedRevision_eq_some, Prod.mk.injEq] at hbody
        obtain ⟨_, ⟨_, ⟨rfl, -⟩, _, -, rfl⟩, _, -, -, rfl⟩ := hbody
        exact ⟨rfl, ensureAll_ok.mp hvalid, _, rfl, rfl⟩
      · exact .inl (by rw [hat])

end ContextDesk.LogAnalysis
