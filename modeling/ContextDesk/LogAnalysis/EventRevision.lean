import ContextDesk.LogAnalysis.Event

/-!
# Timestamp revisions

`applyEventTimestampRevision` replaces the timestamps of exactly identified events in one
transaction and retains the changed rows and their audit; `undoEventRevision` restores them once.
Each function here is one function of the source, in its order of checks. The environment gives
the outcome of what lies outside the transaction's logic: taking the lock and opening the corpus,
each poll of the cancel flag, the fault hook at each checkpoint, and the commit.
-/

namespace ContextDesk.LogAnalysis

open Lib

def eventRevisionMetadataSchemaVersion : Nat := 1

def eventRevisionAuditSchemaVersion : Nat := 1

def maxEventRevisionMetadataBytes : Nat := 1024 * 1024

def maxOperationBytes : Nat := 96

def maxSourceBytes : Nat := 4 * 1024

structure EventTimestampUpdate where
  seq : UInt64
  source : String
  expectedTs : Int
  expectedActiveTimestampBasis : ActiveTimestampBasis
  expectedTimestampProvenance : TimestampProvenance
  expectedUnresolvedLocalTimestamp : Option String
  revisedTs : Int
  revisedActiveTimestampBasis : ActiveTimestampBasis
  deriving DecidableEq

/-- Derived metadata published with a revision. -/
structure EventRevisionMetadata where
  schemaVersion : Nat
  operation : String
  details : Json

structure EventRevisionReport where
  revision : Nat
  previousRevision : Nat
  changedEvents : Nat
  eventCount : Nat
  tsMin : Option Int
  tsMax : Option Int
  deriving DecidableEq

inductive EventRevisionCheckpoint where
  | candidateReady
  | activeEventsChanged
  | beforeCommit
  | undoEventsChanged
  deriving DecidableEq

inductive CancelPoint where
  | beforeStaging
  | staging (count : Nat)
  | staged
  | beforePublication
  deriving DecidableEq

/-- Outcomes of one call that its arguments and the database do not determine. -/
structure RevisionEnv where
  acquire : CoreResult Unit
  cancelled : CancelPoint → Bool
  fault : EventRevisionCheckpoint → CoreResult Unit
  commit : CoreResult Unit

def RevisionEnv.quiet : RevisionEnv where
  acquire := .ok ()
  cancelled _ := false
  fault _ := .ok ()
  commit := .ok ()

def EventRevisionMetadata.toJson (m : EventRevisionMetadata) : Json :=
  .obj [("schemaVersion", .int m.schemaVersion), ("operation", .str m.operation),
    ("details", m.details)]

/-- `byte.is_ascii_alphanumeric()` or one of `.`, `-`, `_`. -/
def isOperationChar (c : Char) : Bool :=
  c.isAlphanum || c == '.' || c == '-' || c == '_'

def validateMetadata (metadata : EventRevisionMetadata) : CoreResult Json := do
  ensure (metadata.schemaVersion = eventRevisionMetadataSchemaVersion)
    s!"unsupported event revision metadata schema {metadata.schemaVersion}"
  ensure (metadata.operation ≠ "" ∧ metadata.operation.utf8ByteSize ≤ maxOperationBytes ∧
      metadata.operation.toList.all isOperationChar)
    "event revision operation must be 1-96 safe ASCII characters"
  ensure (metadata.toJson.encodedLen ≤ maxEventRevisionMetadataBytes)
    s!"event revision metadata exceeds {maxEventRevisionMetadataBytes} bytes"
  pure metadata.toJson

/-- The transitions of the active basis that an update may ask for. -/
def EventTimestampUpdate.supportedTransition (u : EventTimestampUpdate) : Bool :=
  match u.expectedTimestampProvenance with
  | .explicitWallClock =>
    u.expectedUnresolvedLocalTimestamp.isNone &&
      u.expectedActiveTimestampBasis == .explicitWall &&
      u.revisedActiveTimestampBasis == .explicitWall
  | .unresolvedLocal =>
    u.expectedUnresolvedLocalTimestamp.any boundedLocalText &&
      (match u.expectedActiveTimestampBasis, u.revisedActiveTimestampBasis with
        | .orderOnly, .resolvedLocal => true
        | .resolvedLocal, .resolvedLocal => true
        | .resolvedLocal, .orderOnly => true
        | _, _ => false) &&
      (u.expectedActiveTimestampBasis != .orderOnly || u.expectedTs == asI64 u.seq) &&
      (u.revisedActiveTimestampBasis != .orderOnly || u.revisedTs == asI64 u.seq)
  | .orderOnly | .legacyUnknown => false

def validateUpdate (update : EventTimestampUpdate) : CoreResult Unit := do
  ensure (update.seq.toNat ≤ i64Max) "event revision sequence exceeds signed storage range"
  ensure (update.source ≠ "" ∧ update.source.utf8ByteSize ≤ maxSourceBytes ∧
      '\x00' ∉ update.source.toList)
    "event revision source identity is empty or too long"
  ensure (update.expectedTs ≠ update.revisedTs) "event revision update must change the timestamp"
  ensure (update.supportedTransition)
    "event revision active timestamp basis transition is unsupported"

def nextRevision (current : Nat) : CoreResult Nat :=
  require (advancedRevision current) "event revision overflow"

def EventTimestampUpdate.key (u : EventTimestampUpdate) : Int × String := (asI64 u.seq, u.source)

/-- The staging loop: `staged` holds the rows inserted so far. -/
def stageLoop (cancelled : CancelPoint → Bool) (staged : List EventTimestampUpdate) :
    List EventTimestampUpdate → CoreResult (List EventTimestampUpdate)
  | [] => .ok staged
  | update :: rest => do
    ensure (¬ (staged.length % 1024 = 0 ∧ cancelled (.staging staged.length)))
      "event re-analysis cancelled before publication"
    validateUpdate update
    ensure (update.key ∉ staged.map EventTimestampUpdate.key)
      "event revision repeats or cannot stage an event identity"
    stageLoop cancelled (staged ++ [update]) rest

def stageUpdates (cancelled : CancelPoint → Bool) (updates : List EventTimestampUpdate) :
    CoreResult (List EventTimestampUpdate) := do
  let staged ← stageLoop cancelled [] updates
  ensure (staged.length ≠ 0) "event revision requires at least one timestamp update"
  ensure (¬ cancelled .staged) "event re-analysis cancelled before publication"
  pure staged

/-- `active.seq = updates.seq AND active.source = updates.source`. -/
def EventRow.sameEvent (r : EventRow) (u : EventTimestampUpdate) : Bool :=
  r.seq = asI64 u.seq ∧ r.source = u.source

/-- The join condition of the published update. -/
def EventRow.isExpected (r : EventRow) (u : EventTimestampUpdate) : Bool :=
  r.sameEvent u ∧ r.ts = u.expectedTs ∧
    r.activeTimestampBasis = some u.expectedActiveTimestampBasis

/-- The join condition of the identity check: the published one and the immutable evidence. -/
def EventRow.isExact (r : EventRow) (u : EventTimestampUpdate) : Bool :=
  r.isExpected u ∧ r.timestampProvenance = some u.expectedTimestampProvenance ∧
    r.unresolvedLocalTimestamp = u.expectedUnresolvedLocalTimestamp

/-- The provenance condition that the staged rows are checked against once more. -/
def EventTimestampUpdate.consistentProvenance (u : EventTimestampUpdate) : Bool :=
  (u.expectedTimestampProvenance = .explicitWallClock ∧
      u.expectedActiveTimestampBasis = .explicitWall ∧
      u.revisedActiveTimestampBasis = .explicitWall ∧
      u.expectedUnresolvedLocalTimestamp = none) ∨
    (u.expectedTimestampProvenance = .unresolvedLocal ∧
      u.expectedActiveTimestampBasis ∈
        [ActiveTimestampBasis.orderOnly, ActiveTimestampBasis.resolvedLocal] ∧
      u.revisedActiveTimestampBasis ∈
        [ActiveTimestampBasis.orderOnly, ActiveTimestampBasis.resolvedLocal] ∧
      u.expectedUnresolvedLocalTimestamp.any fun value =>
        value ≠ "" ∧ value.length ≤ 256 ∧ '\x00' ∉ value.toList)

def validateStagedUpdates (events : List EventRow) (staged : List EventTimestampUpdate) :
    CoreResult Unit := do
  let exactMatches := (join (fun u r => r.isExact u) staged events).length
  ensure (exactMatches = staged.length)
    s!"event revision identity conflict: expected {staged.length} exact events, found {exactMatches}"
  ensure (staged.countP (fun u => !u.consistentProvenance) = 0)
    "event revision updates contain inconsistent timestamp provenance"

def storedRevisionStats (stats : RevisionStats) : CoreResult RevisionStats := do
  ensure (stats.wallEventCount ≤ stats.eventCount)
    "active wall-clock event count is outside supported range"
  ensure (¬ (stats.eventCount = 0 ∧ (stats.tsMin.isSome ∨ stats.tsMax.isSome)))
    "empty event revision has invalid timestamp statistics"
  ensure (¬ (0 < stats.eventCount ∧
      (stats.tsMin.isNone ∨ stats.tsMax.isNone ∨ ∃ a ∈ stats.tsMin, ∃ b ∈ stats.tsMax, b < a)))
    "active event timestamp statistics are invalid"
  pure stats

/-- The extreme timestamp of the rows that no staged update names, read off the old boundary
where that suffices. -/
def unchangedBoundary (events : List EventRow) (staged : List EventTimestampUpdate)
    (boundary : Int) (minimum : Bool) : Option Int :=
  let changedAtBoundary := staged.countP fun u => u.expectedTs = boundary
  if changedAtBoundary = 0 then some boundary
  else if changedAtBoundary < events.countP fun r => r.ts = boundary then some boundary
  else extreme minimum ((events.filter fun r => !staged.any r.sameEvent).map EventRow.ts)

/-- `1` for a wall-clock basis. -/
def wallOne (b : ActiveTimestampBasis) : Int := if b.isWallClock then 1 else 0

def revisedStats (events : List EventRow) (staged : List EventTimestampUpdate)
    (previous : RevisionStats) : CoreResult RevisionStats := do
  let wallDelta := (staged.map fun u =>
    wallOne u.revisedActiveTimestampBasis - wallOne u.expectedActiveTimestampBasis).sum
  let wallEventCount : Int := previous.wallEventCount + wallDelta
  ensure (0 ≤ wallEventCount ∧ wallEventCount ≤ previous.eventCount)
    "revised wall-clock event count is outside supported range"
  let previousMin ← require previous.tsMin "active event minimum is unavailable"
  let previousMax ← require previous.tsMax "active event maximum is unavailable"
  let revisedMin ← require (extreme true (staged.map EventTimestampUpdate.revisedTs))
    "revised event minimum is unavailable"
  let revisedMax ← require (extreme false (staged.map EventTimestampUpdate.revisedTs))
    "revised event maximum is unavailable"
  let unchangedMin := unchangedBoundary events staged previousMin true
  let unchangedMax := unchangedBoundary events staged previousMax false
  pure
    { eventCount := previous.eventCount
      wallEventCount := wallEventCount.toNat
      tsMin := some (unchangedMin.elim revisedMin fun value => min value revisedMin)
      tsMax := some (unchangedMax.elim revisedMax fun value => max value revisedMax) }

def EventRow.revise (r : EventRow) (u : EventTimestampUpdate) : EventRow :=
  { r with ts := u.revisedTs, activeTimestampBasis := some u.revisedActiveTimestampBasis }

/-- The `UPDATE` that publishes the staged timestamps. -/
def publishStaged (staged : List EventTimestampUpdate) (events : List EventRow) : List EventRow :=
  updateFrom EventRow.isExpected EventRow.revise staged events

def retainedRows (staged : List EventTimestampUpdate) (events : List EventRow) : List EventRow :=
  (join EventRow.isExpected events staged).map Prod.fst

def EventTimestampUpdate.toChange (u : EventTimestampUpdate) (revision : Nat) : TimestampChange where
  auditSchemaVersion := eventRevisionAuditSchemaVersion
  revision := revision
  seq := asI64 u.seq
  source := u.source
  previousTs := u.expectedTs
  previousActiveTimestampBasis := u.expectedActiveTimestampBasis
  currentTs := u.revisedTs
  currentActiveTimestampBasis := u.revisedActiveTimestampBasis

def applyTransaction (env : RevisionEnv) (expectedRevision : Nat) (metadataJson : Json)
    (updates : List EventTimestampUpdate) (db : CorpusDb) :
    CoreResult (EventRevisionReport × CorpusDb) := do
  let previousRevision := db.state.currentRevision
  ensure (previousRevision = expectedRevision)
    s!"stale event revision: expected {expectedRevision}, current {previousRevision}"
  let revision ← nextRevision previousRevision
  let staged ← stageUpdates env.cancelled updates
  let changedEvents := staged.length
  validateStagedUpdates db.events staged
  let previousStats ← storedRevisionStats db.state.stats
  ensure (changedEvents ≤ previousStats.eventCount)
    "event revision update count exceeds the active corpus"
  let revised ← revisedStats db.events staged previousStats
  env.fault .candidateReady
  ensure (¬ env.cancelled .beforePublication) "event re-analysis cancelled before publication"
  let updatedEvents := updatedCount EventRow.isExpected staged db.events
  ensure (updatedEvents = changedEvents)
    s!"event revision publication changed {updatedEvents} events; expected {changedEvents}"
  env.fault .activeEventsChanged
  env.fault .beforeCommit
  env.commit
  pure
    ({ revision := revision
       previousRevision := previousRevision
       changedEvents := changedEvents
       eventCount := revised.eventCount
       tsMin := revised.tsMin
       tsMax := revised.tsMax },
     { events := publishStaged staged db.events
       eventsPrevious := some (retainedRows staged db.events)
       timestampChanges := some (staged.map fun u => u.toChange revision)
       state :=
         { currentRevision := revision
           currentMetadataJson := metadataJson
           stats := revised
           previousRevision := some db.state.currentRevision
           previousMetadataJson := some db.state.currentMetadataJson
           previousStats := some db.state.stats } })

/-- Run a transaction after checks that touch no state. -/
def guarded {α : Type} (before : CoreResult α)
    (body : α → CorpusDb → CoreResult (EventRevisionReport × CorpusDb)) (db : CorpusDb) :
    CoreResult EventRevisionReport × CorpusDb :=
  match before with
  | .error e => (.error e, db)
  | .ok a => atomically (body a) db

def applyEventTimestampRevision (env : RevisionEnv) (expectedRevision : Nat)
    (metadata : EventRevisionMetadata) (updates : List EventTimestampUpdate) (db : CorpusDb) :
    CoreResult EventRevisionReport × CorpusDb :=
  guarded
    (do
      let metadataJson ← validateMetadata metadata
      env.acquire
      ensure (¬ env.cancelled .beforeStaging) "event re-analysis cancelled before staging"
      pure metadataJson)
    (fun metadataJson => applyTransaction env expectedRevision metadataJson updates) db

/-! ## Undo -/

/-- `active.seq = changes.seq AND active.source = changes.source`. -/
def EventRow.sameChange (r : EventRow) (c : TimestampChange) : Bool :=
  r.seq = c.seq ∧ r.source = c.source

/-- The active row carries what the change published. -/
def EventRow.isCurrent (r : EventRow) (c : TimestampChange) : Bool :=
  r.sameChange c ∧ r.ts = c.currentTs ∧
    r.activeTimestampBasis = some c.currentActiveTimestampBasis

/-- The retained row carries what the change replaced. -/
def EventRow.isPrevious (r : EventRow) (c : TimestampChange) : Bool :=
  r.sameChange c ∧ r.ts = c.previousTs ∧
    r.activeTimestampBasis = some c.previousActiveTimestampBasis

/-- Equality of every column that a revision must not touch. -/
def EventRow.samePayload (a p : EventRow) : Bool :=
  a.level = p.level ∧ a.service = p.service ∧ a.host = p.host ∧ a.templateId = p.templateId ∧
    a.params = p.params ∧ a.traceId = p.traceId ∧ a.message = p.message ∧
    a.original = p.original ∧ a.timestampProvenance = p.timestampProvenance ∧
    a.unresolvedLocalTimestamp = p.unresolvedLocalTimestamp

/-- The audit row belongs to the active revision. -/
def TimestampChange.isValid (currentRevision : Nat) (c : TimestampChange) : Bool :=
  c.auditSchemaVersion = eventRevisionAuditSchemaVersion ∧ c.revision = currentRevision

/-- The joined rows `changes × active × previous` under a condition on the active row, one on
the retained row, and one on both. -/
def integrityJoin (changes : List TimestampChange) (active previous : List EventRow)
    (onActive onPrevious : EventRow → TimestampChange → Bool) (both : EventRow → EventRow → Bool) :
    List (TimestampChange × EventRow × EventRow) :=
  changes.flatMap fun c =>
    (active.filter fun a => onActive a c).flatMap fun a =>
      (previous.filter fun p => onPrevious p c && both a p).map fun p => (c, a, p)

def validateRetainedRevisionIntegrity (db : CorpusDb) (currentRevision previousRevision : Nat) :
    CoreResult Nat := do
  let previous ← require db.eventsPrevious "retained event revision schema changed; undo refused"
  let changes ← require db.timestampChanges
    "retained timestamp audit count does not match active changes; undo refused"
  let valid := changes.filter (TimestampChange.isValid currentRevision)
  ensure (0 < changes.length ∧ valid.length = changes.length)
    "retained timestamp audit count does not match active changes; undo refused"
  let previousStats ← require db.state.previousStats "retained event count is unavailable"
  ensure (previous.length = changes.length ∨ previous.length = previousStats.eventCount)
    "retained event snapshot count is inconsistent with its audit; undo refused"
  let mapping := integrityJoin (valid.filter fun c => c.previousTs ≠ c.currentTs) db.events previous
    EventRow.isCurrent EventRow.isPrevious fun _ _ => true
  ensure (mapping.length = changes.length ∧ previousRevision + 1 = currentRevision)
    "retained timestamp audit mapping is inconsistent; undo refused"
  let payload := integrityJoin valid db.events previous
    EventRow.sameChange EventRow.sameChange EventRow.samePayload
  ensure (payload.length = changes.length)
    "active event identity, payload, raw representation, or provenance changed; undo refused"
  pure changes.length

/-- The rows `previous JOIN changes` that the restoring `UPDATE` reads. -/
def restoreRows (currentRevision : Nat) (previous : List EventRow)
    (changes : List TimestampChange) : List (EventRow × TimestampChange) :=
  join EventRow.isPrevious previous (changes.filter (TimestampChange.isValid currentRevision))

def EventRow.restore (r : EventRow) (pc : EventRow × TimestampChange) : EventRow :=
  { r with ts := pc.1.ts, activeTimestampBasis := pc.1.activeTimestampBasis }

def undoTransaction (env : RevisionEnv) (expectedRevision : Nat) (db : CorpusDb) :
    CoreResult (EventRevisionReport × CorpusDb) := do
  let current := db.state.currentRevision
  ensure (current = expectedRevision)
    s!"stale event revision: expected {expectedRevision}, current {current}"
  let previous ← require db.state.previousRevision "no prior event revision is available to undo"
  ensure (previous < current) "retained event revision is not older than the active revision"
  let revision ← nextRevision current
  let retained ← require db.state.previousStats "retained event count is unavailable or invalid"
  ensure (retained.wallEventCount ≤ retained.eventCount)
    "retained wall-clock event count is unavailable or invalid"
  ensure (¬ (retained.eventCount = 0 ∨ retained.tsMin.isNone ∨ retained.tsMax.isNone ∨
      ∃ a ∈ retained.tsMin, ∃ b ∈ retained.tsMax, b < a))
    "retained event revision statistics are invalid"
  let currentStats ← storedRevisionStats db.state.stats
  ensure (db.events.length = currentStats.eventCount)
    "active events changed after revision publication; undo refused"
  let changedEvents ← validateRetainedRevisionIntegrity db current previous
  ensure (¬ env.cancelled .beforePublication) "event revision undo cancelled before publication"
  let rows := restoreRows current (db.eventsPrevious.getD []) (db.timestampChanges.getD [])
  let restoredEvents := updatedCount (fun r pc => r.isCurrent pc.2) rows db.events
  ensure (restoredEvents = changedEvents)
    s!"event revision undo restored {restoredEvents} events; expected {changedEvents}"
  let metadataJson ← require db.state.previousMetadataJson "restore event revision metadata"
  env.fault .undoEventsChanged
  env.fault .beforeCommit
  env.commit
  pure
    ({ revision := revision
       previousRevision := current
       changedEvents := changedEvents
       eventCount := retained.eventCount
       tsMin := retained.tsMin
       tsMax := retained.tsMax },
     { events := updateFrom (fun r pc => r.isCurrent pc.2) EventRow.restore rows db.events
       eventsPrevious := none
       timestampChanges := none
       state :=
         { currentRevision := revision
           currentMetadataJson := metadataJson
           stats := retained
           previousRevision := none
           previousMetadataJson := none
           previousStats := none } })

def undoEventRevision (env : RevisionEnv) (expectedRevision : Nat) (db : CorpusDb) :
    CoreResult EventRevisionReport × CorpusDb :=
  guarded
    (do
      env.acquire
      ensure (¬ env.cancelled .beforeStaging) "event revision undo cancelled before publication")
    (fun _ => undoTransaction env expectedRevision) db

end ContextDesk.LogAnalysis
