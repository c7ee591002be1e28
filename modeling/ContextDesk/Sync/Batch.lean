import ContextDesk.Cases.Situation
import ContextDesk.Portable.Canonical
import Mathlib.Data.List.Sort

/-!
# Batches of an investigation's operations

A batch takes a destination from one cursor of a source to the next. Every operation carries the
fingerprint of the operation before it, its own fingerprint covers that one, and the cursor carries
the fingerprint of the last; `attachInvestigationSyncIntegrity` computes them and
`parseInvestigationSyncBatch` computes them again. A batch is given with the fields of its shape;
what a typed field can still break of the shape is checked first, in the order of the shape.
-/

namespace ContextDesk

open Lib

structure SyncRuntime where
  date : DateParser
  /-- The hexadecimal SHA-256 digest of the text. -/
  sha256 : JsString → JsString
  sha256_hex : ∀ text, isSha256Hex (sha256 text) = true
  /-- `JSON.parse`, `none` where it throws. -/
  jsonParse : JsString → Option JsonValue

def INVESTIGATION_SYNC_SCHEMA_ID : String := "cd-collab.investigation_sync_batch.v1"

inductive SyncExclusion where
  | authentication_credentials
  | membership
  | roles
  | capabilities
  deriving DecidableEq

def SyncExclusion.text : SyncExclusion → String
  | .authentication_credentials => "authentication_credentials"
  | .membership => "membership"
  | .roles => "roles"
  | .capabilities => "capabilities"

def INVESTIGATION_SYNC_EXCLUSIONS : List SyncExclusion :=
  [.authentication_credentials, .membership, .roles, .capabilities]

inductive SyncMutation where
  | upsert
  | tombstone
  deriving DecidableEq

def SyncMutation.text : SyncMutation → String
  | .upsert => "upsert"
  | .tombstone => "tombstone"

inductive SyncActorKind where
  | human
  | service
  | imported_external
  deriving DecidableEq

def SyncActorKind.text : SyncActorKind → String
  | .human => "human"
  | .service => "service"
  | .imported_external => "imported_external"

/-- Every kind but `actor`. -/
abbrev SyncObjectKind := { kind : PortableObjectKind // kind ≠ .actor }

def SyncObjectKind.text (kind : SyncObjectKind) : String := kind.1.text

structure SyncActorAttributionV1 where
  sourceActorId : JsString
  displayName : JsString
  kind : SyncActorKind
  deriving DecidableEq

structure SyncObjectMutationV1 where
  kind : SyncObjectKind
  objectId : JsString
  baseRevision : Nat
  resultRevision : Nat
  baseHash : Option JsString
  resultHash : Option JsString
  privacyClass : PrivacyClass
  deriving DecidableEq

/-- An operation without its place in the chain. -/
structure InvestigationSyncOperationUnsignedV1 where
  operationId : JsString
  sourceInstallationId : JsString
  sourceSequence : Nat
  emittedAt : JsString
  investigationId : JsString
  actor : SyncActorAttributionV1
  mutation : SyncMutation
  object : SyncObjectMutationV1
  payloadJson : Option JsString
  tombstoneReason : Option JsString
  deriving DecidableEq

structure InvestigationSyncOperationV1 extends unsigned : InvestigationSyncOperationUnsignedV1 where
  previousOperationFingerprint : Option JsString
  operationFingerprint : JsString
  deriving DecidableEq

structure InvestigationSyncCursorV1 where
  sourceInstallationId : JsString
  throughSequence : Nat
  lastOperationId : Option JsString
  lastOperationFingerprint : Option JsString
  deriving DecidableEq

structure InvestigationSyncBatchV1 where
  sourceInstallationId : JsString
  investigationId : JsString
  fromCursor : InvestigationSyncCursorV1
  toCursor : InvestigationSyncCursorV1
  operations : List InvestigationSyncOperationV1
  exclusions : List SyncExclusion
  automaticSync : Bool
  networkingIncluded : Bool
  batchFingerprint : JsString
  deriving DecidableEq

structure InvestigationSyncBatchUnsignedV1 where
  sourceInstallationId : JsString
  investigationId : JsString
  fromCursor : InvestigationSyncCursorV1
  operations : List InvestigationSyncOperationUnsignedV1
  deriving DecidableEq

/-! ## The wire -/

def SyncActorAttributionV1.toJson (a : SyncActorAttributionV1) : JsonValue :=
  jsonObject [("sourceActorId", .string a.sourceActorId), ("displayName", .string a.displayName),
    ("kind", jsonText a.kind.text)]

def SyncObjectMutationV1.toJson (o : SyncObjectMutationV1) : JsonValue :=
  jsonObject [("kind", jsonText (SyncObjectKind.text o.kind)), ("objectId", .string o.objectId),
    ("baseRevision", jsonNat o.baseRevision), ("resultRevision", jsonNat o.resultRevision),
    ("baseHash", jsonNullable o.baseHash), ("resultHash", jsonNullable o.resultHash),
    ("privacyClass", jsonText o.privacyClass.text)]

/-- Without the fingerprint of the operation itself. -/
def InvestigationSyncOperationV1.unsignedMembers (o : InvestigationSyncOperationV1) :
    List (String × JsonValue) :=
  [("operationId", .string o.operationId), ("sourceInstallationId", .string o.sourceInstallationId),
    ("sourceSequence", jsonNat o.sourceSequence),
    ("previousOperationFingerprint", jsonNullable o.previousOperationFingerprint),
    ("emittedAt", .string o.emittedAt), ("investigationId", .string o.investigationId),
    ("actor", o.actor.toJson), ("mutation", jsonText o.mutation.text), ("object", o.object.toJson),
    ("payloadJson", jsonNullable o.payloadJson),
    ("tombstoneReason", jsonNullable o.tombstoneReason)]

def operationUnsigned (o : InvestigationSyncOperationV1) : JsonValue := jsonObject o.unsignedMembers

def InvestigationSyncOperationV1.toJson (o : InvestigationSyncOperationV1) : JsonValue :=
  jsonObject (o.unsignedMembers ++ [("operationFingerprint", .string o.operationFingerprint)])

def InvestigationSyncCursorV1.toJson (c : InvestigationSyncCursorV1) : JsonValue :=
  jsonObject [("sourceInstallationId", .string c.sourceInstallationId),
    ("throughSequence", jsonNat c.throughSequence),
    ("lastOperationId", jsonNullable c.lastOperationId),
    ("lastOperationFingerprint", jsonNullable c.lastOperationFingerprint)]

def exclusionsJson (exclusions : List SyncExclusion) : JsonValue :=
  .array (exclusions.map fun e => jsonText e.text)

def InvestigationSyncBatchV1.unsignedMembers (b : InvestigationSyncBatchV1) :
    List (String × JsonValue) :=
  [("schemaId", jsonText INVESTIGATION_SYNC_SCHEMA_ID),
    ("sourceInstallationId", .string b.sourceInstallationId),
    ("investigationId", .string b.investigationId), ("fromCursor", b.fromCursor.toJson),
    ("toCursor", b.toCursor.toJson), ("operations", .array (b.operations.map (·.toJson))),
    ("exclusions", exclusionsJson b.exclusions), ("automaticSync", .bool b.automaticSync),
    ("networkingIncluded", .bool b.networkingIncluded)]

def batchUnsigned (b : InvestigationSyncBatchV1) : JsonValue := jsonObject b.unsignedMembers

def InvestigationSyncBatchV1.toJson (b : InvestigationSyncBatchV1) : JsonValue :=
  jsonObject (b.unsignedMembers ++ [("batchFingerprint", .string b.batchFingerprint)])

/-! ## The shape -/

def checkNstr (path : String) (s : JsString) : Outcome Unit :=
  ensure (1 ≤ s.length) (ContractViolation path "expected non-empty string")

def checkU64 (path : String) (n : Nat) : Outcome Unit :=
  ensure ((n : Int) ≤ MAX_SAFE_INTEGER) (ContractViolation path "expected unsigned safe integer")

def InvestigationSyncCursorV1.checkShape (path : String) (c : InvestigationSyncCursorV1) :
    Outcome Unit := do
  checkNstr (path ++ ".sourceInstallationId") c.sourceInstallationId
  checkU64 (path ++ ".throughSequence") c.throughSequence

def InvestigationSyncOperationV1.checkShape (path : String) (o : InvestigationSyncOperationV1) :
    Outcome Unit := do
  checkNstr (path ++ ".operationId") o.operationId
  checkNstr (path ++ ".sourceInstallationId") o.sourceInstallationId
  checkU64 (path ++ ".sourceSequence") o.sourceSequence
  checkNstr (path ++ ".emittedAt") o.emittedAt
  checkNstr (path ++ ".investigationId") o.investigationId
  checkNstr (path ++ ".actor.sourceActorId") o.actor.sourceActorId
  checkNstr (path ++ ".actor.displayName") o.actor.displayName
  checkNstr (path ++ ".object.objectId") o.object.objectId
  checkU64 (path ++ ".object.baseRevision") o.object.baseRevision
  checkU64 (path ++ ".object.resultRevision") o.object.resultRevision

def checkEach {α : Type} (path : String) (check : String → α → Outcome Unit) :
    Nat → List α → Outcome Unit
  | _, [] => .ok ()
  | index, item :: items => do
    check (itemPath path index) item
    checkEach path check (index + 1) items

theorem checkEach_ok {α : Type} {path : String} {check : String → α → Outcome Unit}
    {P : α → Prop} (h : ∀ path a, check path a = .ok () ↔ P a) (index : Nat) (items : List α) :
    checkEach path check index items = .ok () ↔ ∀ a ∈ items, P a := by
  induction items generalizing index with
  | nil => simp [checkEach]
  | cons a items ih =>
    rw [checkEach, bind_ok, List.forall_mem_cons, ← h (itemPath path index) a, ← ih (index + 1)]
    constructor
    · rintro ⟨⟨⟩, hhead, htail⟩
      exact ⟨hhead, htail⟩
    · rintro ⟨hhead, htail⟩
      exact ⟨(), hhead, htail⟩

def InvestigationSyncBatchV1.checkShape (b : InvestigationSyncBatchV1) : Outcome Unit := do
  checkNstr "$.sourceInstallationId" b.sourceInstallationId
  checkNstr "$.investigationId" b.investigationId
  b.fromCursor.checkShape "$.fromCursor"
  b.toCursor.checkShape "$.toCursor"
  checkEach "$.operations" InvestigationSyncOperationV1.checkShape 0 b.operations

/-! ## Identifiers and texts -/

def isLowerAlnum (u : UInt16) : Bool := isDigitUnit u || (97 ≤ u && u ≤ 122)

def startsAndRest (start : String) (rest : JsString → Bool) (s : JsString) : Bool :=
  (JsString.ofString start).isPrefixOf s && rest (s.drop start.length)

/-- `INSTALLATION_ID`. -/
def isInstallationId (s : JsString) : Bool :=
  startsAndRest "inst-" (fun t => 8 ≤ t.length && t.length ≤ 64 && t.all isLowerAlnum) s

/-- `OPERATION_ID`. -/
def isOperationId (s : JsString) : Bool :=
  startsAndRest "syncop-" (fun t => 12 ≤ t.length && t.length ≤ 96 && t.all isLowerAlnum) s

def isAlnum (u : UInt16) : Bool := isLowerAlnum u || (65 ≤ u && u ≤ 90)

/-- `OPAQUE_ID`. -/
def isOpaqueId : JsString → Bool
  | [] => false
  | u :: rest => isAlnum u && rest.length ≤ 255 &&
      rest.all fun u => isAlnum u || u == 46 || u == 95 || u == 58 || u == 45

def requireSha256 (path : String) (value : JsString) : Outcome Unit :=
  ensure (isSha256Hex value = true) (ContractViolation path "expected lowercase SHA-256 hex digest")

def requireHash (path : String) : Option JsString → Outcome Unit
  | some value => requireSha256 path value
  | none => .ok ()

def requireInstallationId (path : String) (value : JsString) : Outcome Unit :=
  ensure (isInstallationId value = true)
    (ContractViolation path "expected opaque inst-* installation id")

def requireOperationId (path : String) (value : JsString) : Outcome Unit :=
  ensure (isOperationId value = true)
    (ContractViolation path "expected opaque syncop-* operation id")

def requireOpaqueId (path : String) (value : JsString) : Outcome Unit :=
  ensure (isOpaqueId value = true) (ContractViolation path "expected a bounded opaque identifier")

def hasDisallowedText (value : JsString) : Bool :=
  value.any fun u => u ≤ 0x1f || (0x7f ≤ u && u ≤ 0x9f) || (0x200b ≤ u && u ≤ 0x200f) ||
    (0x202a ≤ u && u ≤ 0x202e) || (0x2060 ≤ u && u ≤ 0x206f) || u == 0xfeff

def requireSafeText (path : String) (value : JsString) : Outcome Unit :=
  ensure (JsString.trim value ≠ [] ∧ hasDisallowedText value = false) (ContractViolation path
    "must be non-empty text without control or zero-width characters")

/-- `\d{4}-\d{2}-\d{2}T\d{2}:\d{2}:\d{2}(?:\.\d{1,9})?Z`. -/
def isUtcTimestamp (s : JsString) : Bool :=
  (s.take 19).length == 19 && (List.zipWith (fun p u => p u) ZONED_INSTANT_HEAD s).all id &&
    match s.drop 19 with
    | 46 :: fraction =>
      let digits := fraction.takeWhile isDigit
      1 ≤ digits.length && digits.length ≤ 9 && fraction.dropWhile isDigit == [90]
    | rest => rest == [90]

def assertShareSafeTimestamp (rt : SyncRuntime) (path : String) (value : JsString) : Outcome Unit :=
  ensure (isUtcTimestamp value = true ∧ (rt.date.parse value).isSome = true)
    (ContractViolation path "expected a UTC RFC3339 timestamp")

/-! ## Payloads -/

def FORBIDDEN_AUTHORITY_KEYS : List String :=
  ["credential", "credentials", "authentication", "membership", "memberships", "role", "roles",
    "capability", "capabilities", "permission", "permissions", "grant", "grants"]

def isAuthorityKey (key : JsString) : Bool :=
  hasDisallowedText key || isKeyOf FORBIDDEN_AUTHORITY_KEYS key ||
    ["credential", "authentication", "membership", "role", "capability", "permission",
      "grant"].any fun term => includesText term (normalizedKey key)

def AUTHORITY_RULES : TextRules where
  badText := hasDisallowedText
  textError := "control or zero-width character in payload"
  badKey := isAuthorityKey
  keyError := "authority, membership, role, or capability data is excluded from sync"

def assertNoAuthorityPayload (path : String) (value : JsonValue) : Outcome Unit :=
  AUTHORITY_RULES.check path value

def parseCanonicalPayload (rt : SyncRuntime) (path : String) (raw : JsString) :
    Outcome JsString := do
  let value ← require (rt.jsonParse raw) (ContractViolation path "payloadJson must be valid JSON")
  match value with
  | .object members => do
    assertNoCredentialLeakage path (.object members)
    assertNoAuthorityPayload path (.object members)
    let canonical := canonicalJson (.object members)
    ensure (canonical = raw)
      (ContractViolation path "payloadJson must use canonical JSON key ordering")
    pure canonical
  | _ => .error (ContractViolation path "payloadJson must encode a JSON object")

/-! ## Fingerprints -/

def investigationSyncOperationFingerprint (rt : SyncRuntime) (o : InvestigationSyncOperationV1) :
    JsString := rt.sha256 (canonicalJson (operationUnsigned o))

structure InvestigationSyncObjectHashInputV1 where
  sourceInstallationId : JsString
  investigationId : JsString
  kind : SyncObjectKind
  objectId : JsString
  revision : Nat
  privacyClass : PrivacyClass
  tombstoned : Bool
  payloadJson : Option JsString
  tombstoneReason : Option JsString

def investigationSyncObjectHash (rt : SyncRuntime) (i : InvestigationSyncObjectHashInputV1) :
    JsString :=
  rt.sha256 (canonicalJson (jsonObject [
    ("sourceInstallationId", .string i.sourceInstallationId),
    ("investigationId", .string i.investigationId), ("kind", jsonText (SyncObjectKind.text i.kind)),
    ("objectId", .string i.objectId), ("revision", jsonNat i.revision),
    ("privacyClass", jsonText i.privacyClass.text), ("tombstoned", .bool i.tombstoned),
    ("payloadHash", jsonNullable (i.payloadJson.map rt.sha256)),
    ("tombstoneReasonHash", jsonNullable (i.tombstoneReason.map rt.sha256))]))

def investigationSyncBatchFingerprint (rt : SyncRuntime) (b : InvestigationSyncBatchV1) : JsString :=
  rt.sha256 (canonicalJson (batchUnsigned b))

/-! ## Validation -/

def validateCursor (path : String) (cursor : InvestigationSyncCursorV1) : Outcome Unit := do
  requireInstallationId (path ++ ".sourceInstallationId") cursor.sourceInstallationId
  if cursor.throughSequence = 0 then
    ensure (cursor.lastOperationId = none ∧ cursor.lastOperationFingerprint = none)
      (ContractViolation path "zero cursor must not claim a last operation")
  else
    match cursor.lastOperationId, cursor.lastOperationFingerprint with
    | some lastOperationId, some lastOperationFingerprint => do
      requireOperationId (path ++ ".lastOperationId") lastOperationId
      requireSha256 (path ++ ".lastOperationFingerprint") lastOperationFingerprint
    | _, _ => .error (ContractViolation path
        "non-zero cursor requires last operation identity and fingerprint")

/-- The hash that the object of the operation has to have. -/
def expectedResultHash (rt : SyncRuntime) (o : InvestigationSyncOperationUnsignedV1)
    (tombstoned : Bool) (payloadJson tombstoneReason : Option JsString) : JsString :=
  investigationSyncObjectHash rt
    { sourceInstallationId := o.sourceInstallationId, investigationId := o.investigationId,
      kind := o.object.kind, objectId := o.object.objectId, revision := o.object.resultRevision,
      privacyClass := o.object.privacyClass, tombstoned, payloadJson, tombstoneReason }

def validateBase (path : String) (object : SyncObjectMutationV1) : Outcome Unit := do
  ensure (object.resultRevision = object.baseRevision + 1)
    (ContractViolation (path ++ ".object.resultRevision") "must equal baseRevision + 1")
  if object.baseRevision = 0 then
    ensure (object.baseHash = none)
      (ContractViolation (path ++ ".object.baseHash") "create operation must have null base hash")
  else
    ensure (object.baseHash ≠ none)
      (ContractViolation (path ++ ".object.baseHash") "existing revision requires a base hash")
  requireHash (path ++ ".object.baseHash") object.baseHash

def validateMutation (rt : SyncRuntime) (path : String) (o : InvestigationSyncOperationUnsignedV1) :
    Outcome Unit :=
  match o.mutation with
  | .upsert => do
    ensure (o.tombstoneReason = none)
      (ContractViolation path "upsert requires payloadJson and forbids tombstoneReason")
    let payloadJson ← require o.payloadJson
      (ContractViolation path "upsert requires payloadJson and forbids tombstoneReason")
    let payload ← parseCanonicalPayload rt (path ++ ".payloadJson") payloadJson
    ensure (o.object.resultHash = some (expectedResultHash rt o false (some payload) none))
      (ContractViolation (path ++ ".object.resultHash")
        "must hash the complete canonical object envelope")
  | .tombstone => do
    ensure (o.object.baseRevision ≠ 0)
      (ContractViolation path "cannot tombstone a never-created object")
    ensure (o.payloadJson = none) (ContractViolation path "tombstone forbids payload")
    let reason ← require o.tombstoneReason
      (ContractViolation (path ++ ".tombstoneReason") "tombstone requires a reason")
    ensure (JsString.trim reason ≠ [])
      (ContractViolation (path ++ ".tombstoneReason") "tombstone requires a reason")
    assertNoCredentialLeakage (path ++ ".tombstoneReason") (.string reason)
    ensure (o.object.resultHash = some (expectedResultHash rt o true none (some reason)))
      (ContractViolation (path ++ ".object.resultHash")
        "must hash the complete canonical tombstone envelope")

def validateOperation (rt : SyncRuntime) (path : String) (o : InvestigationSyncOperationV1) :
    Outcome Unit := do
  requireOperationId (path ++ ".operationId") o.operationId
  requireInstallationId (path ++ ".sourceInstallationId") o.sourceInstallationId
  ensure (1 ≤ o.sourceSequence)
    (ContractViolation (path ++ ".sourceSequence") "source sequence must be >= 1")
  assertShareSafeTimestamp rt (path ++ ".emittedAt") o.emittedAt
  requireOpaqueId (path ++ ".investigationId") o.investigationId
  requireOpaqueId (path ++ ".actor.sourceActorId") o.actor.sourceActorId
  requireSafeText (path ++ ".actor.displayName") o.actor.displayName
  requireOpaqueId (path ++ ".object.objectId") o.object.objectId
  validateBase path o.object
  validateMutation rt path o.unsigned
  let resultHash ← require o.object.resultHash
    (ContractViolation (path ++ ".object.resultHash") "result hash is required")
  requireSha256 (path ++ ".object.resultHash") resultHash
  requireSha256 (path ++ ".operationFingerprint") o.operationFingerprint
  ensure (investigationSyncOperationFingerprint rt o = o.operationFingerprint)
    (ContractViolation (path ++ ".operationFingerprint") "operation fingerprint mismatch")

/-! ## Attaching and parsing -/

section

variable (rt : SyncRuntime)

def sequenceLe (a b : InvestigationSyncOperationUnsignedV1) : Prop :=
  a.sourceSequence ≤ b.sourceSequence

instance : DecidableRel sequenceLe := fun _ _ => inferInstanceAs (Decidable (_ ≤ _))

/-- The operation behind the one with the fingerprint. -/
def chainOperation (previousFingerprint : Option JsString)
    (row : InvestigationSyncOperationUnsignedV1) : InvestigationSyncOperationV1 :=
  let provisional : InvestigationSyncOperationV1 :=
    { row with previousOperationFingerprint := previousFingerprint, operationFingerprint := [] }
  { provisional with
    operationFingerprint := investigationSyncOperationFingerprint rt provisional }

def chainOperations : Option JsString → List InvestigationSyncOperationUnsignedV1 →
    List InvestigationSyncOperationV1
  | _, [] => []
  | previousFingerprint, row :: rows =>
    let operation := chainOperation rt previousFingerprint row
    operation :: chainOperations (some operation.operationFingerprint) rows

/-- The cursor behind the last of the operations. -/
def tipCursor (sourceInstallationId : JsString) (fromCursor : InvestigationSyncCursorV1)
    (operations : List InvestigationSyncOperationV1) : InvestigationSyncCursorV1 :=
  match operations.getLast? with
  | some last =>
    { sourceInstallationId, throughSequence := last.sourceSequence,
      lastOperationId := some last.operationId,
      lastOperationFingerprint := some last.operationFingerprint }
  | none => fromCursor

def attachInvestigationSyncIntegrity (u : InvestigationSyncBatchUnsignedV1) :
    InvestigationSyncBatchV1 :=
  let ordered := u.operations.insertionSort sequenceLe
  let operations := chainOperations rt u.fromCursor.lastOperationFingerprint ordered
  let batch : InvestigationSyncBatchV1 :=
    { sourceInstallationId := u.sourceInstallationId, investigationId := u.investigationId,
      fromCursor := u.fromCursor,
      toCursor := tipCursor u.sourceInstallationId u.fromCursor operations,
      operations, exclusions := INVESTIGATION_SYNC_EXCLUSIONS, automaticSync := false,
      networkingIncluded := false, batchFingerprint := [] }
  { batch with batchFingerprint := investigationSyncBatchFingerprint rt batch }

def canonicalizeInvestigationSyncBatch (batch : InvestigationSyncBatchV1) :
    InvestigationSyncBatchV1 :=
  let canonical : InvestigationSyncBatchV1 :=
    { batch with
      operations := batch.operations.insertionSort
        (fun a b => sequenceLe a.unsigned b.unsigned)
      exclusions := INVESTIGATION_SYNC_EXCLUSIONS }
  { canonical with batchFingerprint := investigationSyncBatchFingerprint rt canonical }

/-- The loop over the operations: the index, the sequence and the fingerprint that are expected,
and the ids so far. -/
def checkChain (batch : InvestigationSyncBatchV1) :
    Nat → Nat → Option JsString → List JsString → List InvestigationSyncOperationV1 → Outcome Unit
  | _, _, _, _, [] => .ok ()
  | index, expectedSequence, previousFingerprint, ids, o :: operations => do
    let path := itemPath "$.operations" index
    validateOperation rt path o
    ensure (o.sourceInstallationId = batch.sourceInstallationId)
      (ContractViolation (path ++ ".sourceInstallationId") "must match batch source")
    ensure (o.investigationId = batch.investigationId)
      (ContractViolation (path ++ ".investigationId") "must match batch investigation")
    ensure (o.sourceSequence = expectedSequence)
      (ContractViolation (path ++ ".sourceSequence") "operations must be contiguous and ordered")
    ensure (o.previousOperationFingerprint = previousFingerprint)
      (ContractViolation (path ++ ".previousOperationFingerprint") "append-only chain mismatch")
    ensure (o.operationId ∉ ids) (ContractViolation (path ++ ".operationId") "duplicate operation id")
    checkChain batch (index + 1) (expectedSequence + 1) (some o.operationFingerprint)
      (o.operationId :: ids) operations

def parseInvestigationSyncBatch (batch : InvestigationSyncBatchV1) :
    Outcome InvestigationSyncBatchV1 := do
  batch.checkShape
  assertNoCredentialLeakage "$" batch.toJson
  requireInstallationId "$.sourceInstallationId" batch.sourceInstallationId
  validateCursor "$.fromCursor" batch.fromCursor
  validateCursor "$.toCursor" batch.toCursor
  ensure (batch.fromCursor.sourceInstallationId = batch.sourceInstallationId ∧
      batch.toCursor.sourceInstallationId = batch.sourceInstallationId)
    (ContractViolation "$" "batch and cursor source installations must match")
  requireOpaqueId "$.investigationId" batch.investigationId
  ensure (canonicalJson (exclusionsJson batch.exclusions) =
      canonicalJson (exclusionsJson INVESTIGATION_SYNC_EXCLUSIONS))
    (ContractViolation "$.exclusions" "required sync exclusions must be exact and ordered")
  ensure (batch.automaticSync = false ∧ batch.networkingIncluded = false)
    (ContractViolation "$" "V1 is dry-run only and includes no networking or automatic sync")
  checkChain rt batch 0 (batch.fromCursor.throughSequence + 1)
    batch.fromCursor.lastOperationFingerprint [] batch.operations
  let expectedTo := tipCursor batch.sourceInstallationId batch.fromCursor batch.operations
  ensure (canonicalJson batch.toCursor.toJson = canonicalJson expectedTo.toJson)
    (ContractViolation "$.toCursor" "does not identify the batch chain tip")
  requireSha256 "$.batchFingerprint" batch.batchFingerprint
  ensure (investigationSyncBatchFingerprint rt batch = batch.batchFingerprint)
    (ContractViolation "$.batchFingerprint" "batch fingerprint mismatch")
  pure (canonicalizeInvestigationSyncBatch rt batch)

end

/-! ## A batch -/

def hexUnit (n : Nat) : UInt16 := UInt16.ofNat (if n < 10 then 48 + n else 87 + n)

def hexText (n : Nat) : Nat → JsString
  | 0 => []
  | k + 1 => hexUnit (n / 16 ^ k % 16) :: hexText n k

theorem isSha256Hex_hexText (n : Nat) : isSha256Hex (hexText n 64) = true := by
  have hunit : ∀ k < 16, isLowerHex (hexUnit k) = true := by decide
  have hall : ∀ k, (hexText n k).length = k ∧ (hexText n k).all isLowerHex = true := by
    intro k
    induction k with
    | zero => exact ⟨rfl, rfl⟩
    | succ k ih => simp [hexText, ih, hunit _ (Nat.mod_lt _ (by decide : 0 < 16))]
  obtain ⟨hlength, hhex⟩ := hall 64
  rw [isSha256Hex, hlength, hhex]
  rfl

/-- A polynomial digest of 256 bits, and a parser that reads the empty object alone. -/
def sampleRuntime : SyncRuntime where
  date := plainDate
  sha256 text := hexText (text.foldl (fun h u => (65599 * h + u.toNat + 1) % 2 ^ 256) 7) 64
  sha256_hex _ := isSha256Hex_hexText _
  jsonParse text := if text = JsString.ofString "{}" then some (.object []) else none

def sampleRow : InvestigationSyncOperationUnsignedV1 where
  operationId := JsString.ofString "syncop-aaaaaaaaaaaa"
  sourceInstallationId := JsString.ofString "inst-aaaaaaaa"
  sourceSequence := 1
  emittedAt := JsString.ofString "2026-01-01T00:00:00Z"
  investigationId := JsString.ofString "case-1"
  actor := ⟨JsString.ofString "u1", JsString.ofString "Ada", .human⟩
  mutation := .upsert
  object := ⟨⟨.contribution, by decide⟩, JsString.ofString "n1", 0, 1, none, none, .share_safe⟩
  payloadJson := some (JsString.ofString "{}")
  tombstoneReason := none

def sampleCreate : InvestigationSyncOperationUnsignedV1 :=
  { sampleRow with
    object := { sampleRow.object with
      resultHash := some (expectedResultHash sampleRuntime sampleRow false sampleRow.payloadJson
        none) } }

def sampleUnsigned : InvestigationSyncBatchUnsignedV1 where
  sourceInstallationId := JsString.ofString "inst-aaaaaaaa"
  investigationId := JsString.ofString "case-1"
  fromCursor := ⟨JsString.ofString "inst-aaaaaaaa", 0, none, none⟩
  operations := [sampleCreate]

def sampleBatch : InvestigationSyncBatchV1 :=
  attachInvestigationSyncIntegrity sampleRuntime sampleUnsigned

end ContextDesk
