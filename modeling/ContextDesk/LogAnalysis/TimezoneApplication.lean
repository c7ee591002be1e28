import ContextDesk.LogAnalysis.TimezoneResolution
import ContextDesk.LogAnalysis.EventRevision

/-!
# Applying and clearing source timezones

The saved declarations live in the details of the revision metadata, keyed by source.
`applySourceTimezonesWithBasis` previews every requested source again, collects one update for
each event that the new zone resolves to another timestamp, and publishes them with the new
declarations; `clearSourceTimezone` returns the resolved events of one source to ingest order and
drops its declaration. The writer of revisions they share is `applyEventTimestampRevision`.

The members of a JSON object are kept in insertion order; nothing here reads their order.
-/

namespace ContextDesk.LogAnalysis

open Lib

def declarationsKey : String := "sourceTimezoneDeclarations"

abbrev Declarations := AList fun _ : String => SourceTimezoneDeclaration

/-! ## Stored form -/

def TimezoneDeclarationBasis.toJson : TimezoneDeclarationBasis → Json
  | userDeclared => .str "user_declared"
  | configuredDefault => .str "configured_default"

def TimezoneDeclarationBasis.fromJson (json : Json) : Option TimezoneDeclarationBasis :=
  match json.str? with
  | some "user_declared" => some userDeclared
  | some "configured_default" => some configuredDefault
  | _ => none

def SourceTimezoneDeclaration.toJson (d : SourceTimezoneDeclaration) : Json :=
  .obj [("schemaVersion", .int d.schemaVersion.toNat), ("source", .str d.source),
    ("ianaTimezone", .str d.ianaTimezone), ("basis", d.basis.toJson),
    ("declaredAt", .int d.declaredAt.toInt), ("appliedRevision", .int d.appliedRevision.toNat)]

def SourceTimezoneDeclaration.fromJson (json : Json) : Option SourceTimezoneDeclaration := do
  let schemaVersion ← (← json.field? "schemaVersion").nat?
  guard (schemaVersion < 2 ^ 32)
  let source ← (← json.field? "source").str?
  let ianaTimezone ← (← json.field? "ianaTimezone").str?
  let basis ← TimezoneDeclarationBasis.fromJson (← json.field? "basis")
  let declaredAt ← (← json.field? "declaredAt").int?
  guard (-2 ^ 63 ≤ declaredAt ∧ declaredAt < 2 ^ 63)
  let appliedRevision ← (← json.field? "appliedRevision").nat?
  guard (appliedRevision < 2 ^ 64)
  pure
    { schemaVersion := UInt32.ofNat schemaVersion
      source
      ianaTimezone
      basis
      declaredAt := Int64.ofInt declaredAt
      appliedRevision := UInt64.ofNat appliedRevision }

def declarationFields (declarations : Declarations) : List (String × Json) :=
  declarations.entries.map fun e => (e.1, e.2.toJson)

/-- `serde_json::from_value` of a map of declarations. -/
def declarationsFromJson : Json → Option Declarations
  | .obj fields => do
    let entries ← fields.mapM fun field => do
      let declaration ← SourceTimezoneDeclaration.fromJson field.2
      pure (⟨field.1, declaration⟩ : Sigma fun _ : String => SourceTimezoneDeclaration)
    pure entries.toAList
  | _ => none

/-- `serde_json::from_str` of stored metadata; unknown members are refused. -/
def EventRevisionMetadata.fromJson (json : Json) : Option EventRevisionMetadata :=
  match json with
  | .obj fields => do
    guard (fields.all fun field => ["schemaVersion", "operation", "details"].contains field.1)
    let schemaVersion ← (← json.field? "schemaVersion").nat?
    guard (schemaVersion < 2 ^ 32)
    let operation ← (← json.field? "operation").str?
    pure { schemaVersion, operation, details := (json.field? "details").getD .null }
  | _ => none

/-- The metadata that a stored text denotes; `{}` is a corpus without any revision. -/
def storedMetadata : Json → CoreResult EventRevisionMetadata
  | .obj [] =>
    .ok
      { schemaVersion := eventRevisionMetadataSchemaVersion
        operation := "initial"
        details := .obj [] }
  | json => require (EventRevisionMetadata.fromJson json) "stored event revision metadata is invalid"

def revisionState (db : CorpusDb) : CoreResult (Nat × EventRevisionMetadata) := do
  let metadata ← storedMetadata db.state.currentMetadataJson
  pure (db.state.currentRevision, metadata)

def declarationsFromDetails (details : Json) : CoreResult Declarations :=
  match details.field? declarationsKey with
  | none => .ok ∅
  | some value =>
    require (declarationsFromJson value) "stored timezone declarations are invalid"

def metadataWithDeclarations (current : EventRevisionMetadata) (declarations : Declarations)
    (operation : String) : CoreResult EventRevisionMetadata := do
  let details ←
    match current.details with
    | .obj details => .ok details
    | .null => .ok []
    | _ => .error "stored event revision details are not an object"
  pure
    { schemaVersion := eventRevisionMetadataSchemaVersion
      operation := operation
      details := .obj (details.filter (fun field => field.1 ≠ declarationsKey) ++
        [(declarationsKey, .obj (declarationFields declarations))]) }

/-! ## The records of a source -/

structure StoredTimestampRecord where
  seq : UInt64
  ts : Int
  timestampProvenance : TimestampProvenance
  activeTimestampBasis : ActiveTimestampBasis
  unresolvedLocalTimestamp : Option String
  deriving DecidableEq

def parsedRecord (record : StoredTimestampRecord) : ParsedTime where
  ts := some record.ts
  timestampProvenance := record.timestampProvenance
  activeTimestampBasis := record.activeTimestampBasis
  unresolvedLocalTimestamp := record.unresolvedLocalTimestamp

/-- One row as a record; an absent provenance or basis reads as legacy. -/
def recordOfRow (r : EventRow) : CoreResult StoredTimestampRecord := do
  let seq ← require (tryU64 r.seq) "timezone source event sequence is invalid"
  pure
    { seq := seq
      ts := r.ts
      timestampProvenance := r.timestampProvenance.getD .legacyUnknown
      activeTimestampBasis := r.activeTimestampBasis.getD .legacyUnknown
      unresolvedLocalTimestamp := r.unresolvedLocalTimestamp }

/-- `SELECT .. FROM events WHERE source = ?1 ORDER BY seq`. -/
def rowsOfSource (events : List EventRow) (source : String) : List EventRow :=
  (events.filter fun r => r.source = source).insertionSort fun a b => a.seq ≤ b.seq

def sourceRecords (db : CorpusDb) (source : String) : CoreResult (List StoredTimestampRecord) :=
  collect recordOfRow (rowsOfSource db.events source)

/-! ## Operations -/

section

variable (lib : TimeLibrary)

def resolverFor (source ianaTimezone : String) (declaredAt : Int64) (appliedRevision : UInt64)
    (basis : TimezoneDeclarationBasis) : CoreResult SourceTimezoneResolver :=
  SourceTimezoneResolver.new lib
    { schemaVersion := timezoneDeclarationSchemaVersion
      source := source
      ianaTimezone := ianaTimezone
      basis := basis
      declaredAt := declaredAt
      appliedRevision := appliedRevision }

/-- `expected_revision.checked_add(1)`. -/
def checkedNext (expectedRevision : Nat) : CoreResult UInt64 :=
  require (if expectedRevision + 1 ≤ u64Max then some (UInt64.ofNat (expectedRevision + 1))
    else none) "timezone event revision overflow"

def previewSourceTimezone (opened : CoreResult Unit) (corpusId : String) (expectedRevision : Nat)
    (source ianaTimezone : String) (db : CorpusDb) : CoreResult TimezoneResolutionPreview := do
  opened
  let (currentRevision, _) ← revisionState db
  ensure (currentRevision = expectedRevision)
    s!"stale timezone preview: expected revision {expectedRevision}, current {currentRevision}"
  let appliedRevision ← checkedNext expectedRevision
  let resolver ← resolverFor lib source ianaTimezone 0 appliedRevision .userDeclared
  let records ← sourceRecords db source
  resolver.previewOwned lib { corpusId := corpusId, eventRevision := expectedRevision }
    (records.map fun record => (source, parsedRecord record))

structure SourceTimezoneApplyRequest where
  source : String
  ianaTimezone : String
  previewToken : String
  deriving DecidableEq

/-- The update that gives an event its resolved timestamp. -/
def resolvedUpdate (source : String) (record : StoredTimestampRecord) (unixSeconds : Int) :
    EventTimestampUpdate where
  seq := record.seq
  source := source
  expectedTs := record.ts
  expectedActiveTimestampBasis := record.activeTimestampBasis
  expectedTimestampProvenance := record.timestampProvenance
  expectedUnresolvedLocalTimestamp := record.unresolvedLocalTimestamp
  revisedTs := unixSeconds
  revisedActiveTimestampBasis := .resolvedLocal

/-- The updates of one source: every event the resolver gives another timestamp or basis. -/
def resolutionUpdates (resolver : SourceTimezoneResolver) (source : String) :
    List StoredTimestampRecord → CoreResult (List EventTimestampUpdate)
  | [] => .ok []
  | record :: rest => do
    let resolution ← resolver.resolve lib source (parsedRecord record)
    let updates ← resolutionUpdates resolver source rest
    match resolution with
    | .resolved unixSeconds _ =>
      if record.ts = unixSeconds ∧ record.activeTimestampBasis = .resolvedLocal then pure updates
      else pure (resolvedUpdate source record unixSeconds :: updates)
    | _ => pure updates

/-- The loop over the requests: the declarations so far and the updates so far. -/
def applyRequests (opened : CoreResult Unit) (corpusId : String) (expectedRevision : Nat)
    (declaredAt : Int64) (basis : TimezoneDeclarationBasis) (appliedRevision : UInt64)
    (db : CorpusDb) :
    List SourceTimezoneApplyRequest → Declarations → List EventTimestampUpdate →
      CoreResult (Declarations × List EventTimestampUpdate)
  | [], declarations, updates => .ok (declarations, updates)
  | request :: rest, declarations, updates => do
    let resolver ←
      resolverFor lib request.source request.ianaTimezone declaredAt appliedRevision basis
    let preview ← previewSourceTimezone lib opened corpusId expectedRevision request.source
      request.ianaTimezone db
    ensure (preview.declarationFingerprint = request.previewToken)
      ("timezone preview token no longer matches source " ++ request.source.quote ++
        ", its zone, or the corpus revision")
    let records ← sourceRecords db request.source
    let resolved ← resolutionUpdates lib resolver request.source records
    applyRequests opened corpusId expectedRevision declaredAt basis appliedRevision db rest
      (declarations.insert request.source resolver.declaration) (updates ++ resolved)

def distinctSources : List SourceTimezoneApplyRequest → List String → CoreResult Unit
  | [], _ => .ok ()
  | request :: rest, seen => do
    ensure (request.source ∉ seen)
      ("timezone apply lists source " ++ request.source.quote ++ " more than once")
    distinctSources rest (request.source :: seen)

def planApply (opened : CoreResult Unit) (corpusId : String) (expectedRevision : Nat)
    (requests : List SourceTimezoneApplyRequest) (declaredAt : Int64)
    (basis : TimezoneDeclarationBasis) (db : CorpusDb) :
    CoreResult (EventRevisionMetadata × List EventTimestampUpdate) := do
  ensure (requests ≠ []) "timezone apply requires at least one source"
  distinctSources requests []
  opened
  let (currentRevision, currentMetadata) ← revisionState db
  ensure (currentRevision = expectedRevision)
    s!"stale timezone apply: expected revision {expectedRevision}, current {currentRevision}"
  let appliedRevision ← checkedNext expectedRevision
  let declarations ← declarationsFromDetails currentMetadata.details
  let (declarations, updates) ← applyRequests lib opened corpusId expectedRevision declaredAt basis
    appliedRevision db requests declarations []
  let metadata ← metadataWithDeclarations currentMetadata declarations "timezone_resolution.apply"
  pure (metadata, updates)

/-- Publish a plan, or refuse with the database as it was. -/
def publishPlan (env : RevisionEnv) (expectedRevision : Nat)
    (plan : CoreResult (EventRevisionMetadata × List EventTimestampUpdate)) (db : CorpusDb) :
    CoreResult EventRevisionReport × CorpusDb :=
  match plan with
  | .error e => (.error e, db)
  | .ok (metadata, updates) => applyEventTimestampRevision env expectedRevision metadata updates db

def applySourceTimezonesWithBasis (opened : CoreResult Unit) (env : RevisionEnv)
    (corpusId : String) (expectedRevision : Nat) (requests : List SourceTimezoneApplyRequest)
    (declaredAt : Int64) (basis : TimezoneDeclarationBasis) (db : CorpusDb) :
    CoreResult EventRevisionReport × CorpusDb :=
  publishPlan env expectedRevision
    (planApply lib opened corpusId expectedRevision requests declaredAt basis db) db

def applySourceTimezones (opened : CoreResult Unit) (env : RevisionEnv) (corpusId : String)
    (expectedRevision : Nat) (requests : List SourceTimezoneApplyRequest) (declaredAt : Int64)
    (db : CorpusDb) : CoreResult EventRevisionReport × CorpusDb :=
  applySourceTimezonesWithBasis lib opened env corpusId expectedRevision requests declaredAt
    .userDeclared db

end

/-- The event counts as resolved by a declaration. -/
def StoredTimestampRecord.isResolvedLocal (record : StoredTimestampRecord) : Bool :=
  record.timestampProvenance = .unresolvedLocal ∧ record.activeTimestampBasis = .resolvedLocal

/-- The update that returns a resolved event to ingest order. -/
def clearUpdate (source : String) (record : StoredTimestampRecord) : EventTimestampUpdate where
  seq := record.seq
  source := source
  expectedTs := record.ts
  expectedActiveTimestampBasis := .resolvedLocal
  expectedTimestampProvenance := record.timestampProvenance
  expectedUnresolvedLocalTimestamp := record.unresolvedLocalTimestamp
  revisedTs := asI64 record.seq
  revisedActiveTimestampBasis := .orderOnly

def planClear (opened : CoreResult Unit) (expectedRevision : Nat) (source : String)
    (appliedRevision : UInt64) (db : CorpusDb) :
    CoreResult (EventRevisionMetadata × List EventTimestampUpdate) := do
  opened
  let (currentRevision, currentMetadata) ← revisionState db
  ensure (currentRevision = expectedRevision)
    s!"stale timezone clear: expected revision {expectedRevision}, current {currentRevision}"
  let declarations ← declarationsFromDetails currentMetadata.details
  let declaration ← require (declarations.lookup source)
    "no timezone declaration exists for this source"
  ensure (declaration.appliedRevision = appliedRevision)
    "timezone declaration revision no longer matches"
  let records ← sourceRecords db source
  let updates := (records.filter StoredTimestampRecord.isResolvedLocal).map (clearUpdate source)
  let metadata ← metadataWithDeclarations currentMetadata (declarations.erase source)
    "timezone_resolution.clear"
  pure (metadata, updates)

def clearSourceTimezone (opened : CoreResult Unit) (env : RevisionEnv) (expectedRevision : Nat)
    (source : String) (appliedRevision : UInt64) (db : CorpusDb) :
    CoreResult EventRevisionReport × CorpusDb :=
  publishPlan env expectedRevision (planClear opened expectedRevision source appliedRevision db) db

/-- The declarations that stored metadata saves. -/
def savedDeclarations (metadataJson : Json) : CoreResult Declarations := do
  let metadata ← storedMetadata metadataJson
  declarationsFromDetails metadata.details

end ContextDesk.LogAnalysis
