import ContextDesk.Sync.Batch

/-!
# Planning a batch against a destination

The state of a destination, its strict parser, and the plan of a batch: the operations the
destination has already, the conflicts, and the objects as the operations leave them. Rows are
looked up by keys joined with NUL. An operation is looked up under its source and its id, while the
parser of the state wants the ids themselves to be different.
-/

namespace ContextDesk

open Lib

def INVESTIGATION_SYNC_PLAN_SCHEMA_ID : String := "cd-collab.investigation_sync_plan.v1"
def INVESTIGATION_SYNC_STATE_SCHEMA_ID : String :=
  "cd-collab.investigation_sync_destination_state.v1"

structure SyncDestinationObjectV1 where
  sourceInstallationId : JsString
  kind : SyncObjectKind
  objectId : JsString
  revision : Nat
  objectHash : Option JsString
  privacyClass : PrivacyClass
  tombstoned : Bool
  deriving DecidableEq

structure AppliedSyncOperationV1 where
  operationId : JsString
  operationFingerprint : JsString
  sourceInstallationId : JsString
  sourceSequence : Nat
  deriving DecidableEq

structure InvestigationSyncDestinationStateV1 where
  destinationInstallationId : JsString
  investigationId : JsString
  checkpoint : InvestigationSyncCursorV1
  acceptedPrivacyClasses : List PrivacyClass
  objects : List SyncDestinationObjectV1
  appliedOperations : List AppliedSyncOperationV1
  deriving DecidableEq

/-! ## The wire -/

def SyncDestinationObjectV1.toJson (o : SyncDestinationObjectV1) : JsonValue :=
  jsonObject [("sourceInstallationId", .string o.sourceInstallationId),
    ("kind", jsonText (SyncObjectKind.text o.kind)), ("objectId", .string o.objectId),
    ("revision", jsonNat o.revision), ("objectHash", jsonNullable o.objectHash),
    ("privacyClass", jsonText o.privacyClass.text), ("tombstoned", .bool o.tombstoned)]

def AppliedSyncOperationV1.toJson (o : AppliedSyncOperationV1) : JsonValue :=
  jsonObject [("operationId", .string o.operationId),
    ("operationFingerprint", .string o.operationFingerprint),
    ("sourceInstallationId", .string o.sourceInstallationId),
    ("sourceSequence", jsonNat o.sourceSequence)]

def InvestigationSyncDestinationStateV1.toJson (s : InvestigationSyncDestinationStateV1) :
    JsonValue :=
  jsonObject [("schemaId", jsonText INVESTIGATION_SYNC_STATE_SCHEMA_ID),
    ("destinationInstallationId", .string s.destinationInstallationId),
    ("investigationId", .string s.investigationId), ("checkpoint", s.checkpoint.toJson),
    ("acceptedPrivacyClasses", .array (s.acceptedPrivacyClasses.map fun c => jsonText c.text)),
    ("objects", .array (s.objects.map (·.toJson))),
    ("appliedOperations", .array (s.appliedOperations.map (·.toJson)))]

/-! ## Keys -/

def joinKey (a b : JsString) : JsString := a ++ 0 :: b

def objectKey (sourceInstallationId : JsString) (kind : SyncObjectKind) (objectId : JsString) :
    JsString :=
  joinKey sourceInstallationId (joinKey (JsString.ofString (SyncObjectKind.text kind)) objectId)

def SyncDestinationObjectV1.key (o : SyncDestinationObjectV1) : JsString :=
  objectKey o.sourceInstallationId o.kind o.objectId

def InvestigationSyncOperationUnsignedV1.objectKey (o : InvestigationSyncOperationUnsignedV1) :
    JsString := ContextDesk.objectKey o.sourceInstallationId o.object.kind o.object.objectId

def idKey (sourceInstallationId operationId : JsString) : JsString :=
  joinKey sourceInstallationId operationId

def sequenceKey (sourceInstallationId : JsString) (sourceSequence : Nat) : JsString :=
  joinKey sourceInstallationId (JsonText.decimal sourceSequence).text

/-- `padStart(16, "0")` of the sequence between the other parts. -/
def AppliedSyncOperationV1.sortKey (o : AppliedSyncOperationV1) : JsString :=
  let digits := (JsonText.decimal o.sourceSequence).text
  joinKey o.sourceInstallationId
    (joinKey (List.replicate (16 - digits.length) 48 ++ digits) o.operationId)

/-! ## The state -/

def SyncDestinationObjectV1.checkShape (path : String) (o : SyncDestinationObjectV1) :
    Outcome Unit := do
  checkNstr (path ++ ".sourceInstallationId") o.sourceInstallationId
  checkNstr (path ++ ".objectId") o.objectId
  checkU64 (path ++ ".revision") o.revision

def AppliedSyncOperationV1.checkShape (path : String) (o : AppliedSyncOperationV1) :
    Outcome Unit := do
  checkNstr (path ++ ".operationId") o.operationId
  checkNstr (path ++ ".sourceInstallationId") o.sourceInstallationId
  checkU64 (path ++ ".sourceSequence") o.sourceSequence

def InvestigationSyncDestinationStateV1.checkShape (s : InvestigationSyncDestinationStateV1) :
    Outcome Unit := do
  checkNstr "$.destinationInstallationId" s.destinationInstallationId
  checkNstr "$.investigationId" s.investigationId
  s.checkpoint.checkShape "$.checkpoint"
  checkEach "$.objects" SyncDestinationObjectV1.checkShape 0 s.objects
  checkEach "$.appliedOperations" AppliedSyncOperationV1.checkShape 0 s.appliedOperations

/-- The loop over the objects, with the keys so far. -/
def checkObjects : Nat → List JsString → List SyncDestinationObjectV1 → Outcome Unit
  | _, _, [] => .ok ()
  | index, objectIds, o :: objects => do
    let path := itemPath "$.objects" index
    requireInstallationId (path ++ ".sourceInstallationId") o.sourceInstallationId
    requireOpaqueId (path ++ ".objectId") o.objectId
    ensure (o.key ∉ objectIds) (ContractViolation path "duplicate object state")
    ensure (1 ≤ o.revision) (ContractViolation (path ++ ".revision") "must be >= 1")
    let objectHash ← require o.objectHash
      (ContractViolation (path ++ ".objectHash") "live objects and tombstones require a hash")
    requireSha256 (path ++ ".objectHash") objectHash
    checkObjects (index + 1) (o.key :: objectIds) objects

/-- The loop over the applied operations, with the ids and the sequences so far. -/
def checkAppliedOperations :
    Nat → List JsString → List JsString → List AppliedSyncOperationV1 → Outcome Unit
  | _, _, _, [] => .ok ()
  | index, operationIds, sourceSequences, o :: operations => do
    let path := itemPath "$.appliedOperations" index
    requireOperationId (path ++ ".operationId") o.operationId
    requireInstallationId (path ++ ".sourceInstallationId") o.sourceInstallationId
    requireSha256 (path ++ ".operationFingerprint") o.operationFingerprint
    ensure (1 ≤ o.sourceSequence) (ContractViolation (path ++ ".sourceSequence") "must be >= 1")
    ensure (o.operationId ∉ operationIds)
      (ContractViolation (path ++ ".operationId") "duplicate applied operation id")
    let key := sequenceKey o.sourceInstallationId o.sourceSequence
    ensure (key ∉ sourceSequences)
      (ContractViolation (path ++ ".sourceSequence") "duplicate source sequence")
    checkAppliedOperations (index + 1) (o.operationId :: operationIds) (key :: sourceSequences) operations

/-- The checkpoint is the last of the operations of its source. -/
def checkCheckpoint (s : InvestigationSyncDestinationStateV1) : Outcome Unit := do
  let checkpointOperations := s.appliedOperations.filter fun row =>
    row.sourceInstallationId = s.checkpoint.sourceInstallationId
  ensure ((checkpointOperations.any fun row =>
      s.checkpoint.throughSequence < row.sourceSequence) = false)
    (ContractViolation "$.checkpoint" "applied operation exists beyond the checkpoint")
  if 0 < s.checkpoint.throughSequence then
    let tip := checkpointOperations.find? fun row =>
      row.sourceSequence = s.checkpoint.throughSequence
    ensure (tip.isSome = true ∧ tip.map (·.operationId) = s.checkpoint.lastOperationId ∧
        tip.map (·.operationFingerprint) = s.checkpoint.lastOperationFingerprint)
      (ContractViolation "$.checkpoint" "checkpoint tip is not bound to applied operation history")

def keyLe {α : Type} (key : α → JsString) (a b : α) : Prop := codeUnitsLe (key a) (key b) = true

instance {α : Type} (key : α → JsString) : DecidableRel (keyLe key) :=
  fun _ _ => inferInstanceAs (Decidable (_ = true))

def parseInvestigationSyncDestinationState (state : InvestigationSyncDestinationStateV1) :
    Outcome InvestigationSyncDestinationStateV1 := do
  state.checkShape
  assertNoCredentialLeakage "$" state.toJson
  requireInstallationId "$.destinationInstallationId" state.destinationInstallationId
  validateCursor "$.checkpoint" state.checkpoint
  requireOpaqueId "$.investigationId" state.investigationId
  ensure (state.acceptedPrivacyClasses ≠ []) (ContractViolation "$.acceptedPrivacyClasses"
    "destination must accept at least one privacy class")
  ensure state.acceptedPrivacyClasses.Nodup
    (ContractViolation "$.acceptedPrivacyClasses" "duplicate privacy class")
  checkObjects 0 [] state.objects
  checkAppliedOperations 0 [] [] state.appliedOperations
  checkCheckpoint state
  pure { state with
    acceptedPrivacyClasses := state.acceptedPrivacyClasses.insertionSort
      (keyLe fun c => JsString.ofString c.text)
    objects := state.objects.insertionSort (keyLe SyncDestinationObjectV1.key)
    appliedOperations := state.appliedOperations.insertionSort
      (keyLe AppliedSyncOperationV1.sortKey) }

/-! ## The plan -/

inductive SyncConflictCode where
  | source_loop
  | cursor_mismatch
  | operation_identity_collision
  | source_sequence_collision
  | partial_replay
  | object_missing
  | object_already_exists
  | revision_conflict
  | base_hash_conflict
  | privacy_class_not_accepted
  | privacy_widening
  | resurrection_forbidden
  deriving DecidableEq

def SyncConflictCode.text : SyncConflictCode → String
  | .source_loop => "source_loop"
  | .cursor_mismatch => "cursor_mismatch"
  | .operation_identity_collision => "operation_identity_collision"
  | .source_sequence_collision => "source_sequence_collision"
  | .partial_replay => "partial_replay"
  | .object_missing => "object_missing"
  | .object_already_exists => "object_already_exists"
  | .revision_conflict => "revision_conflict"
  | .base_hash_conflict => "base_hash_conflict"
  | .privacy_class_not_accepted => "privacy_class_not_accepted"
  | .privacy_widening => "privacy_widening"
  | .resurrection_forbidden => "resurrection_forbidden"

structure SyncConflictV1 where
  code : SyncConflictCode
  operationId : Option JsString
  sourceSequence : Option Nat
  objectKind : Option SyncObjectKind
  objectId : Option JsString
  detail : String
  deriving DecidableEq

inductive SyncOutcome where
  | apply
  | replay
  | blocked
  deriving DecidableEq

def SyncOutcome.text : SyncOutcome → String
  | .apply => "apply"
  | .replay => "replay"
  | .blocked => "blocked"

structure PlannedSyncOperationV1 where
  operationId : JsString
  sourceSequence : Nat
  action : SyncOutcome
  deriving DecidableEq

structure InvestigationSyncPlanV1 where
  outcome : SyncOutcome
  batchFingerprint : JsString
  sourceInstallationId : JsString
  destinationInstallationId : JsString
  investigationId : JsString
  operations : List PlannedSyncOperationV1
  conflicts : List SyncConflictV1
  destinationStateFingerprint : JsString
  planFingerprint : JsString
  checkpointBefore : InvestigationSyncCursorV1
  checkpointAfter : InvestigationSyncCursorV1
  deriving DecidableEq

def SyncConflictV1.toJson (c : SyncConflictV1) : JsonValue :=
  jsonObject [("code", jsonText c.code.text), ("operationId", jsonNullable c.operationId),
    ("sourceSequence", c.sourceSequence.elim .null jsonNat),
    ("objectKind", c.objectKind.elim .null fun kind => jsonText (SyncObjectKind.text kind)),
    ("objectId", jsonNullable c.objectId), ("detail", jsonText c.detail)]

def PlannedSyncOperationV1.toJson (o : PlannedSyncOperationV1) : JsonValue :=
  jsonObject [("operationId", .string o.operationId), ("sourceSequence", jsonNat o.sourceSequence),
    ("action", jsonText o.action.text)]

/-- The report without its fingerprint, with the fields that are the same in every plan. -/
def InvestigationSyncPlanV1.reportJson (p : InvestigationSyncPlanV1) : JsonValue :=
  jsonObject [("schemaId", jsonText INVESTIGATION_SYNC_PLAN_SCHEMA_ID), ("mode", jsonText "dry_run"),
    ("outcome", jsonText p.outcome.text), ("batchFingerprint", .string p.batchFingerprint),
    ("sourceInstallationId", .string p.sourceInstallationId),
    ("destinationInstallationId", .string p.destinationInstallationId),
    ("investigationId", .string p.investigationId),
    ("operations", .array (p.operations.map (·.toJson))),
    ("conflicts", .array (p.conflicts.map (·.toJson))),
    ("destinationStateFingerprint", .string p.destinationStateFingerprint),
    ("checkpointBefore", p.checkpointBefore.toJson), ("checkpointAfter", p.checkpointAfter.toJson),
    ("applyAuthorized", .bool false), ("automaticSync", .bool false),
    ("networkingIncluded", .bool false), ("credentialsTransferred", .bool false),
    ("membershipGranted", .bool false), ("rolesGranted", .bool false),
    ("capabilitiesGranted", .bool false), ("exclusions", exclusionsJson INVESTIGATION_SYNC_EXCLUSIONS)]

def conflict (code : SyncConflictCode) (detail : String) : SyncConflictV1 :=
  ⟨code, none, none, none, none, detail⟩

def conflictAt (code : SyncConflictCode) (detail : String) (o : InvestigationSyncOperationV1) :
    SyncConflictV1 :=
  ⟨code, some o.operationId, some o.sourceSequence, some o.object.kind, some o.object.objectId,
    detail⟩

def conflictLe (left right : SyncConflictV1) : Prop :=
  -- no sequence is -1
  let sequence := fun c : SyncConflictV1 => c.sourceSequence.elim 0 (· + 1)
  let key := fun c : SyncConflictV1 => joinKey (JsString.ofString c.code.text) (joinKey
    (c.objectKind.elim [] fun kind => JsString.ofString (SyncObjectKind.text kind))
    (c.objectId.getD []))
  sequence left < sequence right ∨
    (sequence left = sequence right ∧ codeUnitsLe (key left) (key right) = true)

instance : DecidableRel conflictLe := fun _ _ => inferInstanceAs (Decidable (_ ∨ _))

def sortConflicts (rows : List SyncConflictV1) : List SyncConflictV1 :=
  rows.insertionSort conflictLe

/-- The value of a map made from the rows: the last row with the key. -/
def lastWith {α : Type} (key : α → JsString) (k : JsString) (rows : List α) : Option α :=
  rows.reverse.find? fun row => key row = k

section

variable (rt : SyncRuntime) (batch : InvestigationSyncBatchV1)
  (destination : InvestigationSyncDestinationStateV1)

def appliedById (o : InvestigationSyncOperationV1) : Option AppliedSyncOperationV1 :=
  lastWith (fun row => idKey row.sourceInstallationId row.operationId)
    (idKey o.sourceInstallationId o.operationId) destination.appliedOperations

def appliedBySequence (o : InvestigationSyncOperationV1) : Option AppliedSyncOperationV1 :=
  lastWith (fun row => sequenceKey row.sourceInstallationId row.sourceSequence)
    (sequenceKey o.sourceInstallationId o.sourceSequence) destination.appliedOperations

/-- The destination has applied this very operation. -/
def isReplay (o : InvestigationSyncOperationV1) : Bool :=
  (appliedById destination o).map (·.operationFingerprint) = some o.operationFingerprint

def exactReplay : Bool := batch.operations ≠ [] ∧ batch.operations.all (isReplay destination)

def identityConflicts (o : InvestigationSyncOperationV1) : List SyncConflictV1 :=
  let byId := appliedById destination o
  let bySequence := appliedBySequence destination o
  (if byId.any fun row => row.operationFingerprint ≠ o.operationFingerprint then
    [conflictAt .operation_identity_collision
      "operation id was previously applied with different bytes" o] else []) ++
  (if bySequence.any fun row => row.operationId ≠ o.operationId then
    [conflictAt .source_sequence_collision
      "source sequence was previously occupied by another operation" o] else [])

/-- The conflicts before an object is looked at. -/
def historyConflicts : List SyncConflictV1 :=
  (if destination.destinationInstallationId = batch.sourceInstallationId then
    [conflict .source_loop "source and destination installations must differ"] else []) ++
  batch.operations.flatMap (identityConflicts destination) ++
  (if exactReplay batch destination = false ∧
      canonicalJson destination.checkpoint.toJson ≠ canonicalJson batch.fromCursor.toJson then
    [conflict .cursor_mismatch "destination checkpoint does not match batch fromCursor"] else []) ++
  (if exactReplay batch destination = false ∧
      0 < (batch.operations.filter (isReplay destination)).length then
    [conflict .partial_replay "mixed replay and new operations require a new contiguous batch"]
    else [])

def findObject (objects : List SyncDestinationObjectV1) (key : JsString) :
    Option SyncDestinationObjectV1 := objects.find? fun row => row.key = key

/-- `Map.prototype.set`: in the place of the row with the key, else at the end. -/
def setObject (row : SyncDestinationObjectV1) :
    List SyncDestinationObjectV1 → List SyncDestinationObjectV1
  | [] => [row]
  | other :: objects =>
    if other.key = row.key then row :: objects else other :: setObject row objects

def resultObject (o : InvestigationSyncOperationV1) : SyncDestinationObjectV1 :=
  { sourceInstallationId := o.sourceInstallationId, kind := o.object.kind,
    objectId := o.object.objectId, revision := o.object.resultRevision,
    objectHash := o.object.resultHash, privacyClass := o.object.privacyClass,
    tombstoned := o.mutation = .tombstone }

/-- Why the operation cannot be applied to the objects. -/
def objectConflict (accepted : List PrivacyClass) (objects : List SyncDestinationObjectV1)
    (o : InvestigationSyncOperationV1) : Option SyncConflictV1 :=
  if o.object.privacyClass ∉ accepted then
    some (conflictAt .privacy_class_not_accepted
      "destination policy does not accept this privacy class" o)
  else
    let current := findObject objects o.objectKey
    if o.object.baseRevision = 0 then
      if current.isSome then
        some (conflictAt .object_already_exists "create operation targets an existing object" o)
      else none
    else
      match current with
      | none => some (conflictAt .object_missing "operation targets an unknown object" o)
      | some current =>
        if current.revision ≠ o.object.baseRevision then
          some (conflictAt .revision_conflict
            "destination revision does not match operation baseRevision" o)
        else if current.objectHash ≠ o.object.baseHash then
          some (conflictAt .base_hash_conflict
            "destination hash does not match operation baseHash" o)
        else if current.privacyClass = .owner_only ∧ o.object.privacyClass = .share_safe then
          some (conflictAt .privacy_widening "sync cannot widen owner-only content to share-safe" o)
        else if current.tombstoned ∧ o.mutation = .upsert then
          some (conflictAt .resurrection_forbidden "V1 does not resurrect tombstoned objects" o)
        else none

/-- The loop over the operations: the objects and the conflicts so far. -/
def applyOperations (accepted : List PrivacyClass) : List SyncDestinationObjectV1 →
    List InvestigationSyncOperationV1 → List SyncDestinationObjectV1 × List SyncConflictV1
  | objects, [] => (objects, [])
  | objects, o :: operations =>
    match objectConflict accepted objects o with
    | some conflict =>
      let (objects', conflicts) := applyOperations accepted objects operations
      (objects', conflict :: conflicts)
    | none => applyOperations accepted (setObject (resultObject o) objects) operations

def planConflicts : List SyncConflictV1 :=
  let conflicts := historyConflicts batch destination
  if exactReplay batch destination = false ∧ conflicts = [] then
    (applyOperations destination.acceptedPrivacyClasses destination.objects batch.operations).2
  else conflicts

def planOutcome : SyncOutcome :=
  if planConflicts batch destination ≠ [] then .blocked
  else if exactReplay batch destination ∨ batch.operations = [] then .replay
  else .apply

def investigationSyncDestinationStateFingerprint : Outcome JsString := do
  let state ← parseInvestigationSyncDestinationState destination
  pure (rt.sha256 (canonicalJson state.toJson))

end

def planInvestigationSync (rt : SyncRuntime) (batchRaw : InvestigationSyncBatchV1)
    (destinationRaw : InvestigationSyncDestinationStateV1) : Outcome InvestigationSyncPlanV1 := do
  let batch ← parseInvestigationSyncBatch rt batchRaw
  let destination ← parseInvestigationSyncDestinationState destinationRaw
  ensure (destination.investigationId = batch.investigationId)
    (ContractViolation "$.investigationId" "destination and batch investigations must match")
  ensure (destination.checkpoint.sourceInstallationId = batch.sourceInstallationId)
    (ContractViolation "$.checkpoint.sourceInstallationId" "checkpoint must track the batch source")
  let outcome := planOutcome batch destination
  let destinationStateFingerprint ← investigationSyncDestinationStateFingerprint rt destination
  let report : InvestigationSyncPlanV1 :=
    { outcome, batchFingerprint := batch.batchFingerprint,
      sourceInstallationId := batch.sourceInstallationId,
      destinationInstallationId := destination.destinationInstallationId,
      investigationId := batch.investigationId,
      operations := batch.operations.map fun o => ⟨o.operationId, o.sourceSequence, outcome⟩,
      conflicts := sortConflicts (planConflicts batch destination),
      destinationStateFingerprint, planFingerprint := [],
      checkpointBefore := destination.checkpoint,
      checkpointAfter := if outcome = .apply then batch.toCursor else destination.checkpoint }
  pure { report with planFingerprint := rt.sha256 (canonicalJson report.reportJson) }

end ContextDesk
