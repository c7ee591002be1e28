import ContextDesk.Cases.Contracts

/-!
# The contract of investigation coordination

Who coordinates an investigation: the projection, the actions on it, the strict parsers of the
request and of the three responses, and the evaluator. A value is written for the wire by `toJs`.
The evaluator looks at the archive, the holder, the eligibility and the expected revision, in this
order.
-/

namespace ContextDesk

open Lib

def INVESTIGATION_COORDINATION_SCHEMA_ID : String := "cd-collab.investigation_coordination.v1"
def INVESTIGATION_COORDINATION_ACTION_REQUEST_SCHEMA_ID : String :=
  "cd-collab.investigation_coordination_action_request.v1"
def INVESTIGATION_COORDINATION_ACTION_SUCCESS_SCHEMA_ID : String :=
  "cd-collab.investigation_coordination_action_success.v1"
def INVESTIGATION_COORDINATION_CHANGED_SCHEMA_ID : String :=
  "cd-collab.investigation_coordination_changed.v1"
def INVESTIGATION_COORDINATION_ACTION_REFUSED_SCHEMA_ID : String :=
  "cd-collab.investigation_coordination_action_refused.v1"

inductive InvestigationCoordinationAction where
  | claim_self
  | release_self
  | assign_participant
  | release_participant
  deriving DecidableEq

def InvestigationCoordinationAction.text : InvestigationCoordinationAction → String
  | .claim_self => "claim_self"
  | .release_self => "release_self"
  | .assign_participant => "assign_participant"
  | .release_participant => "release_participant"

def INVESTIGATION_COORDINATION_ACTIONS : List InvestigationCoordinationAction :=
  [.claim_self, .release_self, .assign_participant, .release_participant]

inductive InvestigationCoordinationRefusal where
  | investigation_archived
  | occupied
  | already_coordinator
  | not_coordinator
  | target_not_coordinator
  | target_not_eligible
  | actor_not_eligible
  | idempotency_intent_mismatch
  deriving DecidableEq

def InvestigationCoordinationRefusal.text : InvestigationCoordinationRefusal → String
  | .investigation_archived => "investigation_archived"
  | .occupied => "occupied"
  | .already_coordinator => "already_coordinator"
  | .not_coordinator => "not_coordinator"
  | .target_not_coordinator => "target_not_coordinator"
  | .target_not_eligible => "target_not_eligible"
  | .actor_not_eligible => "actor_not_eligible"
  | .idempotency_intent_mismatch => "idempotency_intent_mismatch"

def INVESTIGATION_COORDINATION_REFUSALS : List InvestigationCoordinationRefusal :=
  [.investigation_archived, .occupied, .already_coordinator, .not_coordinator,
    .target_not_coordinator, .target_not_eligible, .actor_not_eligible,
    .idempotency_intent_mismatch]

def INVESTIGATION_COORDINATION_REFUSAL_DETAIL_MAX_LENGTH : Nat := 600
def INVESTIGATION_COORDINATION_ID_MAX_LENGTH : Nat := 512
def INVESTIGATION_COORDINATION_USERNAME_MAX_LENGTH : Nat := 128

structure InvestigationCoordinatorIdentityV1 where
  identityId : JsString
  username : JsString
  deriving DecidableEq

structure InvestigationCoordinationV1 where
  investigationId : JsString
  coordinator : Option InvestigationCoordinatorIdentityV1
  revision : Nat
  updatedAt : Option JsString
  updatedBy : Option InvestigationCoordinatorIdentityV1
  archived : Bool
  deriving DecidableEq

structure InvestigationCoordinationActionRequestV1 where
  investigationId : JsString
  action : InvestigationCoordinationAction
  targetIdentityId : Option JsString
  expectedRevision : Nat
  idempotencyKey : JsString
  clientTime : Option JsString
  deriving DecidableEq

structure InvestigationCoordinationActionSuccessV1 where
  investigationId : JsString
  action : InvestigationCoordinationAction
  targetIdentityId : Option JsString
  previousRevision : Nat
  previousCoordinator : Option InvestigationCoordinatorIdentityV1
  applied : InvestigationCoordinationV1
  deriving DecidableEq

structure InvestigationCoordinationChangedV1 where
  investigationId : JsString
  action : InvestigationCoordinationAction
  targetIdentityId : Option JsString
  current : InvestigationCoordinationV1
  deriving DecidableEq

structure InvestigationCoordinationActionRefusedV1 where
  investigationId : JsString
  action : InvestigationCoordinationAction
  targetIdentityId : Option JsString
  reason : InvestigationCoordinationRefusal
  detail : JsString
  current : InvestigationCoordinationV1
  deriving DecidableEq

/-! ## The wire -/

def jsText (s : String) : JsValue := .string (JsString.ofString s)

def jsNullable {α : Type} (write : α → JsValue) : Option α → JsValue
  | none => .null
  | some a => write a

def InvestigationCoordinatorIdentityV1.toJs (i : InvestigationCoordinatorIdentityV1) : JsValue :=
  .object [("identityId", .string i.identityId), ("username", .string i.username)]

def InvestigationCoordinationV1.toJs (c : InvestigationCoordinationV1) : JsValue :=
  .object [("schemaId", jsText INVESTIGATION_COORDINATION_SCHEMA_ID),
    ("investigationId", .string c.investigationId),
    ("coordinator", jsNullable InvestigationCoordinatorIdentityV1.toJs c.coordinator),
    ("revision", .number c.revision),
    ("updatedAt", jsNullable .string c.updatedAt),
    ("updatedBy", jsNullable InvestigationCoordinatorIdentityV1.toJs c.updatedBy),
    ("archived", .bool c.archived)]

def InvestigationCoordinationActionSuccessV1.toJs (s : InvestigationCoordinationActionSuccessV1) :
    JsValue :=
  .object [("schemaId", jsText INVESTIGATION_COORDINATION_ACTION_SUCCESS_SCHEMA_ID),
    ("investigationId", .string s.investigationId),
    ("action", jsText s.action.text),
    ("targetIdentityId", jsNullable .string s.targetIdentityId),
    ("previousRevision", .number s.previousRevision),
    ("previousCoordinator",
      jsNullable InvestigationCoordinatorIdentityV1.toJs s.previousCoordinator),
    ("applied", s.applied.toJs)]

def InvestigationCoordinationChangedV1.toJs (c : InvestigationCoordinationChangedV1) : JsValue :=
  .object [("schemaId", jsText INVESTIGATION_COORDINATION_CHANGED_SCHEMA_ID),
    ("error", jsText "coordination_changed"),
    ("investigationId", .string c.investigationId),
    ("action", jsText c.action.text),
    ("targetIdentityId", jsNullable .string c.targetIdentityId),
    ("current", c.current.toJs)]

def InvestigationCoordinationActionRefusedV1.toJs (r : InvestigationCoordinationActionRefusedV1) :
    JsValue :=
  .object [("schemaId", jsText INVESTIGATION_COORDINATION_ACTION_REFUSED_SCHEMA_ID),
    ("error", jsText "coordination_refused"),
    ("investigationId", .string r.investigationId),
    ("action", jsText r.action.text),
    ("targetIdentityId", jsNullable .string r.targetIdentityId),
    ("reason", jsText r.reason.text),
    ("detail", .string r.detail),
    ("current", r.current.toJs)]

/-! ## Shapes -/

def identityShape : ObjectShape :=
  [("identityId", .required, .nstr), ("username", .required, .nstr)]

def actionNames : List String := INVESTIGATION_COORDINATION_ACTIONS.map (·.text)

def coordinationEnvelopeShape : ObjectShape :=
  [("schemaId", .required, .en [INVESTIGATION_COORDINATION_SCHEMA_ID]),
    ("investigationId", .required, .nstr), ("coordinator", .nullable, .str),
    ("revision", .required, .u64), ("updatedAt", .nullable, .nstr),
    ("updatedBy", .nullable, .str), ("archived", .required, .bool)]

def actionRequestShape : ObjectShape :=
  [("schemaId", .required, .en [INVESTIGATION_COORDINATION_ACTION_REQUEST_SCHEMA_ID]),
    ("investigationId", .required, .nstr), ("action", .required, .en actionNames),
    ("targetIdentityId", .optional, .nstr), ("expectedRevision", .required, .u64),
    ("idempotencyKey", .required, .nstr), ("clientTime", .optional, .nstr)]

def actionSuccessEnvelopeShape : ObjectShape :=
  [("schemaId", .required, .en [INVESTIGATION_COORDINATION_ACTION_SUCCESS_SCHEMA_ID]),
    ("investigationId", .required, .nstr), ("action", .required, .en actionNames),
    ("targetIdentityId", .nullable, .nstr), ("previousRevision", .required, .u64),
    ("previousCoordinator", .nullable, .str), ("applied", .required, .str)]

def changedEnvelopeShape : ObjectShape :=
  [("schemaId", .required, .en [INVESTIGATION_COORDINATION_CHANGED_SCHEMA_ID]),
    ("error", .required, .en ["coordination_changed"]), ("investigationId", .required, .nstr),
    ("action", .required, .en actionNames), ("targetIdentityId", .nullable, .nstr),
    ("current", .required, .str)]

def refusedEnvelopeShape : ObjectShape :=
  [("schemaId", .required, .en [INVESTIGATION_COORDINATION_ACTION_REFUSED_SCHEMA_ID]),
    ("error", .required, .en ["coordination_refused"]), ("investigationId", .required, .nstr),
    ("action", .required, .en actionNames), ("targetIdentityId", .nullable, .nstr),
    ("reason", .required, .en (INVESTIGATION_COORDINATION_REFUSALS.map (·.text))),
    ("detail", .required, .nstr), ("current", .required, .str)]

abbrev JsRecord := List (String × JsValue)

/-- `record.key`, with `null` for what is not there. -/
def JsRecord.get (record : JsRecord) (key : String) : JsValue :=
  (ownProperty key record).getD .null

def recordAt (path : String) : JsValue → Outcome JsRecord
  | .object record => .ok record
  | _ => .error (ContractViolation path "expected object")

/-- A nested value is checked by its own parser. -/
def hideNested (nestedFields : List String) (record : JsRecord) : JsRecord :=
  record.map fun (key, value) =>
    match value with
    | .null => (key, .null)
    | value => (key, if key ∈ nestedFields then jsText "nested" else value)

def checkEnvelope (raw : JsValue) (path : String) (shape : ObjectShape)
    (nestedFields : List String) : Outcome JsRecord := do
  let record ← recordAt path raw
  checkObject path shape (.object (hideNested nestedFields record))
  pure record

/-! ## Text -/

/-- C0 controls and DEL, and the invisible and bidirectional formatting characters. A surrogate is
in no range. -/
def isDangerousUnit (u : UInt16) : Bool :=
  u ≤ 0x1f || u == 0x7f || (0x200b ≤ u && u ≤ 0x200f) || (0x202a ≤ u && u ≤ 0x202e) ||
    (0x2060 ≤ u && u ≤ 0x2069) || u == 0xfeff

def hasDangerousUnicode (s : JsString) : Bool := s.any isDangerousUnit

/-- `normalize("NFKC")`, of which only that it keeps ASCII is used. -/
structure Normalizer where
  normalize : JsString → JsString
  normalize_ascii : ∀ s, (∀ u ∈ s, u < 0x80) → normalize s = s

def UNSAFE_TEXT : String :=
  "control characters or invisible/bidi-override formatting characters are not allowed"

section

variable (nfkc : Normalizer) (date : DateParser)

def normalizedSafeText (value : JsValue) (path : String) (maxLength : Nat) : Outcome JsString :=
  match value with
  | .string value => do
    ensure (value.length ≤ maxLength) (ContractViolation path "expected at most wire characters")
    let normalized := JsString.trim (nfkc.normalize value)
    ensure (normalized ≠ []) (ContractViolation path "expected non-empty text")
    ensure (normalized.length ≤ maxLength)
      (ContractViolation path "expected at most normalized characters")
    ensure (hasDangerousUnicode normalized = false) (ContractViolation path UNSAFE_TEXT)
    pure normalized
  | _ => .error (ContractViolation path "expected string")

def exactSafeWireText (value : JsValue) (path : String) (maxLength : Nat) : Outcome JsString :=
  match value with
  | .string value => do
    ensure (value ≠ []) (ContractViolation path "expected non-empty text")
    ensure (value.length ≤ maxLength) (ContractViolation path "expected at most wire characters")
    ensure (hasDangerousUnicode value = false) (ContractViolation path UNSAFE_TEXT)
    let normalized := JsString.trim (nfkc.normalize value)
    ensure (normalized ≠ []) (ContractViolation path "expected non-empty text")
    ensure (normalized = value) (ContractViolation path
      "must already be normalized and contain no surrounding whitespace")
    pure value
  | _ => .error (ContractViolation path "expected string")

def idValue (value : JsValue) (path : String) : Outcome JsString :=
  exactSafeWireText nfkc value path INVESTIGATION_COORDINATION_ID_MAX_LENGTH

def usernameValue (value : JsValue) (path : String) : Outcome JsString :=
  exactSafeWireText nfkc value path INVESTIGATION_COORDINATION_USERNAME_MAX_LENGTH

/-! ## Parsers -/

def InvestigationCoordinationAction.requiresTarget : InvestigationCoordinationAction → Bool
  | .assign_participant | .release_participant => true
  | .claim_self | .release_self => false

def targetForAction (raw : JsValue) (action : InvestigationCoordinationAction) (path : String) :
    Outcome (Option JsString) := do
  let targetIdentityId ← match raw with
    | .null => pure none
    | raw => some <$> idValue nfkc raw path
  ensure (action.requiresTarget = targetIdentityId.isSome)
    (ContractViolation path (if action.requiresTarget then "is required for participant actions"
      else "must be null for self actions"))
  pure targetIdentityId

def actionValue (value : JsValue) (path : String) : Outcome InvestigationCoordinationAction :=
  match value with
  | .string s =>
    require (INVESTIGATION_COORDINATION_ACTIONS.find? fun a => JsString.ofString a.text = s)
      (ContractViolation path "expected investigation coordination action")
  | _ => .error (ContractViolation path "expected investigation coordination action")

def refusalValue (value : JsValue) (path : String) : Outcome InvestigationCoordinationRefusal :=
  match value with
  | .string s =>
    require (INVESTIGATION_COORDINATION_REFUSALS.find? fun r => JsString.ofString r.text = s)
      (ContractViolation path "expected investigation coordination refusal")
  | _ => .error (ContractViolation path "expected investigation coordination refusal")

def parseIdentity (raw : JsValue) (path : String) :
    Outcome InvestigationCoordinatorIdentityV1 := do
  checkObject path identityShape raw
  let record ← recordAt path raw
  let identityId ← idValue nfkc (record.get "identityId") (path ++ ".identityId")
  let username ← usernameValue nfkc (record.get "username") (path ++ ".username")
  pure { identityId, username }

def parseNullableIdentity (raw : JsValue) (path : String) :
    Outcome (Option InvestigationCoordinatorIdentityV1) :=
  match raw with
  | .null => pure none
  | raw => some <$> parseIdentity nfkc raw path

def natOf : JsValue → Nat
  | .number n => n.num.toNat
  | _ => 0

def boolOf : JsValue → Bool
  | .bool b => b
  | _ => false

/-- Revision zero is the absence of a record; every other one has a time and an author. -/
def checkRevision (revision : Nat) (coordinator updatedBy : Option InvestigationCoordinatorIdentityV1)
    (updatedAt : Option JsString) (path : String) : Outcome Unit :=
  if revision = 0 then
    ensure (coordinator = none ∧ updatedAt = none ∧ updatedBy = none)
      (ContractViolation (path ++ ".revision")
        "revision zero requires coordinator and update metadata to be null")
  else
    match updatedAt, updatedBy with
    | some updatedAt, some _ =>
      ensure (date.isIsoInstant updatedAt = true) (ContractViolation (path ++ ".updatedAt")
        "expected an ISO-8601 instant with an explicit offset")
    | _, _ => .error (ContractViolation (path ++ ".revision")
        "a recorded revision requires paired updatedAt and updatedBy metadata")

def parseInvestigationCoordination (raw : JsValue) (path : String) :
    Outcome InvestigationCoordinationV1 := do
  let record ← checkEnvelope raw path coordinationEnvelopeShape ["coordinator", "updatedBy"]
  let revision := natOf (record.get "revision")
  let coordinator ← parseNullableIdentity nfkc (record.get "coordinator") (path ++ ".coordinator")
  let updatedBy ← parseNullableIdentity nfkc (record.get "updatedBy") (path ++ ".updatedBy")
  let updatedAt ← match record.get "updatedAt" with
    | .null => pure none
    | raw => some <$> normalizedSafeText nfkc raw (path ++ ".updatedAt") 64
  checkRevision date revision coordinator updatedBy updatedAt path
  let investigationId ← idValue nfkc (record.get "investigationId") (path ++ ".investigationId")
  pure { investigationId, coordinator, revision, updatedAt, updatedBy
         archived := boolOf (record.get "archived") }

/-- `IDEMPOTENCY_KEY_RE`. -/
def isIdempotencyKey (s : JsString) : Bool :=
  let alphanumeric := fun u : UInt16 =>
    (0x30 ≤ u && u ≤ 0x39) || (0x41 ≤ u && u ≤ 0x5a) || (0x61 ≤ u && u ≤ 0x7a)
  let safe := fun u : UInt16 => alphanumeric u || u == 0x2e || u == 0x5f || u == 0x3a || u == 0x2d
  match s with
  | [] => false
  | u :: rest => alphanumeric u && rest.all safe && 7 ≤ rest.length && rest.length ≤ 127

def parseInvestigationCoordinationActionRequest (raw : JsValue) :
    Outcome InvestigationCoordinationActionRequestV1 := do
  checkObject "$" actionRequestShape raw
  let record ← recordAt "$" raw
  let action ← actionValue (record.get "action") "$.action"
  let targetIdentityId ← match ownProperty "targetIdentityId" record with
    | some (.string s) => some <$> idValue nfkc (.string s) "$.targetIdentityId"
    | _ => pure none
  ensure (action.requiresTarget = targetIdentityId.isSome)
    (ContractViolation "$.targetIdentityId"
      (if action.requiresTarget then "is required for participant actions"
        else "is forbidden for self actions"))
  let idempotencyKey ← match record.get "idempotencyKey" with
    | .string s => pure s
    | _ => .error (ContractViolation "$.idempotencyKey" "expected string")
  ensure (isIdempotencyKey idempotencyKey = true)
    (ContractViolation "$.idempotencyKey" "must be 8..128 safe characters")
  let clientTime ← match ownProperty "clientTime" record with
    | some (.string s) => do
      let clientTime ← normalizedSafeText nfkc (.string s) "$.clientTime" 64
      ensure (date.isIsoInstant clientTime = true) (ContractViolation "$.clientTime"
        "expected an ISO-8601 instant with an explicit offset")
      pure (some clientTime)
    | _ => pure none
  let investigationId ← idValue nfkc (record.get "investigationId") "$.investigationId"
  pure { investigationId, action, targetIdentityId, idempotencyKey, clientTime
         expectedRevision := natOf (record.get "expectedRevision") }

def sameIdentity : Option InvestigationCoordinatorIdentityV1 →
    Option InvestigationCoordinatorIdentityV1 → Bool
  | some left, some right => left.identityId = right.identityId
  | _, _ => false

/-- The identity of a coordinator, if there is one. -/
def idOf (coordinator : Option InvestigationCoordinatorIdentityV1) : Option JsString :=
  coordinator.map (·.identityId)

/-- What each action must have done to the coordinator. -/
def checkApplied (action : InvestigationCoordinationAction) (targetIdentityId : Option JsString)
    (previousCoordinator : Option InvestigationCoordinatorIdentityV1)
    (applied : InvestigationCoordinationV1) : Outcome Unit :=
  match action with
  | .claim_self => do
    ensure (previousCoordinator = none ∧ applied.coordinator ≠ none)
      (ContractViolation "$.applied.coordinator" "claim_self must claim a vacant investigation")
    ensure (sameIdentity applied.coordinator applied.updatedBy = true)
      (ContractViolation "$.applied.updatedBy" "claim_self must be recorded by the coordinator")
  | .release_self => do
    ensure (previousCoordinator ≠ none ∧ applied.coordinator = none)
      (ContractViolation "$.applied.coordinator"
        "release_self must release an occupied investigation")
    ensure (sameIdentity previousCoordinator applied.updatedBy = true)
      (ContractViolation "$.applied.updatedBy"
        "release_self must be recorded by the prior coordinator")
  | .assign_participant => do
    ensure (applied.coordinator ≠ none ∧
        sameIdentity previousCoordinator applied.coordinator = false)
      (ContractViolation "$.applied.coordinator" "assign_participant must change the coordinator")
    ensure (idOf applied.coordinator = targetIdentityId)
      (ContractViolation "$.applied.coordinator" "must match targetIdentityId")
  | .release_participant => do
    ensure (previousCoordinator ≠ none ∧ applied.coordinator = none)
      (ContractViolation "$.applied.coordinator"
        "release_participant must release the named coordinator")
    ensure (idOf previousCoordinator = targetIdentityId)
      (ContractViolation "$.previousCoordinator" "must match targetIdentityId")

def parseInvestigationCoordinationActionSuccess (raw : JsValue) :
    Outcome InvestigationCoordinationActionSuccessV1 := do
  let record ← checkEnvelope raw "$" actionSuccessEnvelopeShape ["previousCoordinator", "applied"]
  let investigationId ← idValue nfkc (record.get "investigationId") "$.investigationId"
  let action ← actionValue (record.get "action") "$.action"
  let targetIdentityId ←
    targetForAction nfkc (record.get "targetIdentityId") action "$.targetIdentityId"
  let previousRevision := natOf (record.get "previousRevision")
  let previousCoordinator ←
    parseNullableIdentity nfkc (record.get "previousCoordinator") "$.previousCoordinator"
  let applied ← parseInvestigationCoordination nfkc date (record.get "applied") "$.applied"
  ensure (applied.investigationId = investigationId)
    (ContractViolation "$.applied.investigationId" "must match root investigationId")
  ensure (¬ (previousRevision = 0 ∧ previousCoordinator ≠ none))
    (ContractViolation "$.previousCoordinator"
      "revision zero cannot have a previous coordinator")
  ensure (applied.revision = previousRevision + 1 ∧
      ((previousRevision + 1 : Nat) : Int) ≤ MAX_SAFE_INTEGER)
    (ContractViolation "$.applied.revision" "must be exactly previousRevision + 1")
  ensure (applied.archived = false)
    (ContractViolation "$.applied.archived" "an applied coordination action cannot archive a case")
  checkApplied action targetIdentityId previousCoordinator applied
  pure { investigationId, action, targetIdentityId, previousRevision, previousCoordinator, applied }

def parseInvestigationCoordinationChanged (raw : JsValue) :
    Outcome InvestigationCoordinationChangedV1 := do
  let record ← checkEnvelope raw "$" changedEnvelopeShape ["current"]
  let investigationId ← idValue nfkc (record.get "investigationId") "$.investigationId"
  let action ← actionValue (record.get "action") "$.action"
  let targetIdentityId ←
    targetForAction nfkc (record.get "targetIdentityId") action "$.targetIdentityId"
  let current ← parseInvestigationCoordination nfkc date (record.get "current") "$.current"
  ensure (current.investigationId = investigationId)
    (ContractViolation "$.current.investigationId" "must match root investigationId")
  ensure (current.archived = false)
    (ContractViolation "$.current.archived" "archive refusal must precede a changed response")
  ensure (¬ (action = .claim_self ∧ current.coordinator ≠ none))
    (ContractViolation "$.current.coordinator" "claim_self holder state must refuse before CAS")
  ensure (¬ (action = .release_self ∧ current.coordinator = none))
    (ContractViolation "$.current.coordinator"
      "release_self requires a potentially matching holder")
  ensure (¬ (action = .assign_participant ∧ idOf current.coordinator = targetIdentityId))
    (ContractViolation "$.current.coordinator"
      "same-target assignment must refuse before CAS")
  ensure (¬ (action = .release_participant ∧ idOf current.coordinator ≠ targetIdentityId))
    (ContractViolation "$.current.coordinator" "target mismatch must refuse before CAS")
  pure { investigationId, action, targetIdentityId, current }

def REFUSAL_ACTIONS : InvestigationCoordinationRefusal → List InvestigationCoordinationAction
  | .investigation_archived => INVESTIGATION_COORDINATION_ACTIONS
  | .occupied => [.claim_self]
  | .already_coordinator => [.claim_self, .assign_participant]
  | .not_coordinator => [.release_self]
  | .target_not_coordinator => [.release_participant]
  | .target_not_eligible => [.assign_participant]
  | .actor_not_eligible => [.claim_self]
  | .idempotency_intent_mismatch => INVESTIGATION_COORDINATION_ACTIONS

def parseInvestigationCoordinationActionRefused (raw : JsValue) :
    Outcome InvestigationCoordinationActionRefusedV1 := do
  let record ← checkEnvelope raw "$" refusedEnvelopeShape ["current"]
  let investigationId ← idValue nfkc (record.get "investigationId") "$.investigationId"
  let action ← actionValue (record.get "action") "$.action"
  let targetIdentityId ←
    targetForAction nfkc (record.get "targetIdentityId") action "$.targetIdentityId"
  let reason ← refusalValue (record.get "reason") "$.reason"
  let current ← parseInvestigationCoordination nfkc date (record.get "current") "$.current"
  ensure (current.investigationId = investigationId)
    (ContractViolation "$.current.investigationId" "must match root investigationId")
  ensure (action ∈ REFUSAL_ACTIONS reason)
    (ContractViolation "$.reason" (reason.text ++ " cannot refuse " ++ action.text))
  ensure (¬ (reason = .investigation_archived ∧ current.archived = false))
    (ContractViolation "$.current.archived" "archived refusal requires archived current state")
  ensure (¬ (reason ≠ .investigation_archived ∧ reason ≠ .idempotency_intent_mismatch ∧
      current.archived = true))
    (ContractViolation "$.current.archived" "fresh refusal reason requires a working investigation")
  ensure (¬ ((reason = .occupied ∨ reason = .already_coordinator) ∧ current.coordinator = none))
    (ContractViolation "$.current.coordinator"
      (reason.text ++ " requires an occupied investigation"))
  ensure (¬ (action = .assign_participant ∧ reason = .already_coordinator ∧
      idOf current.coordinator ≠ targetIdentityId))
    (ContractViolation "$.current.coordinator" "must match targetIdentityId")
  ensure (¬ (reason = .actor_not_eligible ∧ current.coordinator ≠ none))
    (ContractViolation "$.current.coordinator" "holder state must refuse before eligibility")
  ensure (¬ (action = .assign_participant ∧ reason = .target_not_eligible ∧
      idOf current.coordinator = targetIdentityId))
    (ContractViolation "$.current.coordinator"
      "same-target assignment must refuse before eligibility")
  ensure (¬ (action = .release_participant ∧ reason = .target_not_coordinator ∧
      idOf current.coordinator = targetIdentityId))
    (ContractViolation "$.current.coordinator"
      "target holder cannot be refused as not coordinator")
  let detail ← normalizedSafeText nfkc (record.get "detail") "$.detail"
    INVESTIGATION_COORDINATION_REFUSAL_DETAIL_MAX_LENGTH
  pure { investigationId, action, targetIdentityId, reason, detail, current }

end

/-! ## The evaluator -/

structure InvestigationCoordinationEvaluationIdentity where
  identityId : JsString
  eligibleParticipant : Bool

structure InvestigationCoordinationEvaluationSubject where
  archived : Bool
  revision : Nat
  coordinator : Option InvestigationCoordinatorIdentityV1
  actor : InvestigationCoordinationEvaluationIdentity
  target : Option InvestigationCoordinationEvaluationIdentity

inductive InvestigationCoordinationEvaluation where
  | allowed (previousRevision : Nat) (nextCoordinatorIdentityId : Option JsString)
  | refused (reason : InvestigationCoordinationRefusal)
  | changed (currentRevision : Nat)
  deriving DecidableEq

/-- The holder and the eligibility: who coordinates next, or why not. -/
def evaluateHolder (action : InvestigationCoordinationAction)
    (subject : InvestigationCoordinationEvaluationSubject) :
    Except InvestigationCoordinationRefusal (Option JsString) :=
  let holderId := idOf subject.coordinator
  match action with
  | .claim_self =>
    if holderId = some subject.actor.identityId then .error .already_coordinator
    else if holderId ≠ none then .error .occupied
    else if subject.actor.eligibleParticipant = false then .error .actor_not_eligible
    else .ok (some subject.actor.identityId)
  | .assign_participant =>
    match subject.target with
    | none => .error .target_not_eligible
    | some target =>
      if holderId = some target.identityId then .error .already_coordinator
      else if target.eligibleParticipant = false then .error .target_not_eligible
      else .ok (some target.identityId)
  | .release_self =>
    if holderId ≠ some subject.actor.identityId then .error .not_coordinator else .ok none
  | .release_participant =>
    match subject.target with
    | none => .error .target_not_coordinator
    | some target =>
      if holderId ≠ some target.identityId then .error .target_not_coordinator else .ok none

def evaluateInvestigationCoordination (action : InvestigationCoordinationAction)
    (expectedRevision : Nat) (subject : InvestigationCoordinationEvaluationSubject) :
    InvestigationCoordinationEvaluation :=
  if subject.archived then .refused .investigation_archived
  else
    match evaluateHolder action subject with
    | .error reason => .refused reason
    | .ok next =>
      if expectedRevision ≠ subject.revision then .changed subject.revision
      else .allowed subject.revision next

end ContextDesk
