import ContextDesk.Cases.Store

/-!
# The case service

The calls that change a case, statement by statement. `Stamp` is what the clock and the generator
give a call; `CaseEnv` is what the service calls that has no state of the store: the reading of
times, links and resolutions, hashes, orders of text. A call with `Sql.atomic` around its statements
is a transaction of the store.
-/

namespace ContextDesk

open Lib

structure Stamp where
  /-- The readings of the clock, in their order. -/
  now : Nat → UtcTime
  uuid : JsString

structure SnapshotFingerprintInput where
  parentSnapshotId : Option JsString
  evidence : List SnapshotEvidenceV1
  visibility : PrivacyClass
  protocolVersion : JsString
  normalizationRevision : Option Nat

structure ResolutionInput where
  /-- What `record` checks before its first statement. -/
  content : JsValue
  expectedRevision : Option Rat := none

structure CaseEnv where
  date : DateParser
  nfkc : Normalizer
  canonicalClientTime : Option JsString → Outcome (Option JsString)
  normalizeOccurredAt : UtcTime → OccurredAtInput → Outcome NormalizedOccurredAt
  hashContributionContent : ContributionKind → JsString → JsString
  parseHypothesisLinks : JsValue → String → Outcome (List HypothesisLink)
  isRfc4122Uuid : JsString → Bool
  snapshotFingerprint : SnapshotFingerprintInput → JsString
  persistedSnapshot : SnapshotRow → Outcome SnapshotRow
  /-- By time of creation, then by id. -/
  snapshotBefore : SnapshotRow → SnapshotRow → Bool
  normalizationRevisionFor : JsString → Option Nat
  readResolution : UtcTime → JsValue → Outcome ResolutionContent
  /-- Whether the service was given the resolution service. -/
  resolutionGuard : Bool

section

variable (env : CaseEnv)

def orError {α : Type} (x : Outcome α) : CaseM α := Sql.lift (x.mapError .error)

def orContract {α : Type} (x : Outcome α) : CaseM α := Sql.lift (x.mapError .contract)

def requireCase (id : JsString) : CaseM CaseRow := do
  let row ← getCase id
  Sql.orFail row (.error "case not found")

def requireLocked (id : JsString) : CaseM CaseRow := do
  let row ← lockCase id
  Sql.orFail row (.error "case not found")

theorem requireCase_ok {id : JsString} {row : CaseRow} {w w' : Work CaseDb}
    (h : requireCase id w = (.ok row, w')) : w.db.cases id = some row ∧ w'.db = w.db := by
  obtain ⟨found, w₁, hget, hfound⟩ := Sql.bind_ok.mp h
  obtain ⟨rfl, hdb⟩ := select_ok hget
  obtain ⟨hrow, rfl⟩ := Sql.orFail_ok.mp hfound
  exact ⟨hrow, hdb⟩

theorem requireLocked_ok {id : JsString} {row : CaseRow} {w w' : Work CaseDb}
    (h : requireLocked id w = (.ok row, w')) : w.db.cases id = some row ∧ w'.db = w.db :=
  requireCase_ok h

def appendDomainTimeline (caseId : JsString) (event : TimelineInsert) (now : UtcTime) :
    CaseM Unit := do
  let clientTime ← orError (env.canonicalClientTime event.clientTime)
  let _ ← requireCase caseId
  appendTimeline caseId { event with clientTime } now

/-! ## The row -/

structure CreateCaseInput where
  title : JsString
  severity : Option CaseSeverity := none
  clientTime : Option JsString := none
  problemStatement : Option JsString := none
  affectedParties : Option JsString := none
  impact : Option JsString := none
  scope : Option JsString := none
  openQuestions : Option (List JsString) := none
  investigationContext : Option JsValue := none
  occurredAt : OccurredAtInput := {}

/-- `cleanSituation`, with what it establishes. -/
def cleanedSituation (s : CaseSituation) : Outcome { s : CaseSituation // Clean s } :=
  match h : cleanSituation s with
  | .ok cleaned => .ok ⟨cleaned, clean_of_cleanSituation h⟩
  | .error e => .error e

theorem Clean.withContext {s : CaseSituation} (h : Clean s)
    (investigationContext : Option InvestigationContextV1) :
    Clean { s with investigationContext } :=
  ⟨h.problemStatement, h.affectedParties, h.impact, h.scope, h.openQuestions, h.count⟩

def jsAbsent (key : String) : Option JsString → List (String × JsValue)
  | none => []
  | some value => [(key, .string value)]

def createCase (stamp : Stamp) (actor : Actor) (input : CreateCaseInput) (origin : JsString) :
    CaseM CaseRow := do
  let clientTime ← orError (env.canonicalClientTime input.clientTime)
  let occurrence ← orError (env.normalizeOccurredAt (stamp.now 1) input.occurredAt)
  let situation ← orError (cleanedSituation
    { problemStatement := input.problemStatement.getD []
      affectedParties := input.affectedParties.getD []
      impact := input.impact.getD []
      scope := input.scope.getD []
      openQuestions := input.openQuestions.getD []
      investigationContext := none })
  let context ← orError (normalizeInvestigationContext (input.investigationContext.getD .null))
  let row : CaseRow :=
    { title := input.title
      situation := ⟨_, 0, situation.2.withContext context⟩
      occurrence
      severity := input.severity.getD .medium
      status := .open
      legalHold := false
      retentionClass := "standard"
      createdAt := (stamp.now 0).toISOString
      createdBy := actor.id
      createdByUsername := actor.username
      participants := [⟨actor.id, actor.username⟩] }
  Sql.atomic do
    insertCase stamp.uuid row
    appendTimeline stamp.uuid
      { kind := "case_created", actor, targetId := some stamp.uuid, clientTime
        payload := .object (("title", .string row.title) ::
          jsAbsent "occurredAt" occurrence.occurredAt) } (stamp.now 2)
    auditAppend ⟨actor.id, "case_create", stamp.uuid, origin, .success⟩
    pure row

def setOccurredAt (stamp : Stamp) (caseId : JsString) (actor : Actor) (input : OccurredAtInput)
    (origin : JsString) (clientTime : Option JsString) : CaseM CaseRow := do
  let canonicalTime ← orError (env.canonicalClientTime clientTime)
  let row ← requireCase caseId
  let occurrence ← orError (env.normalizeOccurredAt (stamp.now 0) input)
  updateOccurredAt caseId occurrence
  appendTimeline caseId
    { kind := "case_occurred_at", actor, targetId := some caseId, clientTime := canonicalTime
      payload := .object [("occurredAt", jsNullable .string occurrence.occurredAt),
        ("occurredAtPrecision", jsText occurrence.occurredAtPrecision.text),
        ("occurredAtZone", jsText occurrence.occurredAtZone.text),
        ("previousOccurredAt", jsNullable .string row.occurrence.occurredAt)] } (stamp.now 1)
  auditAppend ⟨actor.id, "case_occurred_at",
    caseId ++ JsString.ofString ":" ++
      occurrence.occurredAt.getD (JsString.ofString "unrecorded"), origin, .success⟩
  requireCase caseId

def SituationField.text : SituationField → String
  | .problemStatement => "problemStatement"
  | .affectedParties => "affectedParties"
  | .impact => "impact"
  | .scope => "scope"
  | .openQuestions => "openQuestions"
  | .investigationContext => "investigationContext"

def preparedCall (row : SituationRow) (call : SituationCall) :
    Outcome (PreparedCall env.canonicalClientTime) :=
  match h : prepareSituation env.canonicalClientTime row call with
  | .ok update => .ok ⟨call, row, update, h⟩
  | .error e => .error e

inductive AtomicSituationUpdateResult where
  | not_found
  | conflict (currentVersion : Nat)
  | unchanged (row : CaseRow)
  | updated (row : CaseRow)

def SituationEvent.payload (event : SituationEvent) : JsValue :=
  .object [("changedFields", .array (event.changedFields.map fun f => jsText f.text)),
    ("openQuestionCount", .number event.openQuestionCount),
    ("predecessorVersion", .number event.predecessorVersion),
    ("situationVersion", .number event.situationVersion)]

variable {env}

def writeSituation (stamp : Stamp) (caseId : JsString) (actor : Actor)
    (p : PreparedCall env.canonicalClientTime) (existing : CaseRow) (origin : JsString) :
    CaseM AtomicSituationUpdateResult := do
  let situation := p.row existing.situation.situationVersion
  updateCase caseId fun row => { row with situation }
  appendTimeline caseId
    { kind := "case_situation_updated", actor, targetId := some caseId
      clientTime := p.update.clientTime, payload := p.event.payload } (stamp.now 0)
  auditAppend ⟨actor.id, "case_situation_update", caseId, origin, .success⟩
  pure (.updated { existing with situation })

def updateSituationAtomic (stamp : Stamp) (caseId : JsString) (actor : Actor)
    (p : PreparedCall env.canonicalClientTime) (origin : JsString) :
    CaseM AtomicSituationUpdateResult :=
  Sql.atomic do
    match ← getCase caseId with
    | none => pure .not_found
    | some existing =>
      if (existing.situation.situationVersion : Int) ≠ p.call.expectedVersion then
        pure (.conflict existing.situation.situationVersion)
      else if p.update.changedFields = [] then pure (.unchanged existing)
      else writeSituation stamp caseId actor p existing origin

def AtomicSituationUpdateResult.row : AtomicSituationUpdateResult → Except Thrown CaseRow
  | .not_found => .error (.error "case not found")
  | .conflict currentVersion => .error (.situationConflict currentVersion)
  | .unchanged row => .ok row
  | .updated row => .ok row

variable (env)

/-- Two checks come before the row is read; `prepareSituation` makes them too. -/
def updateSituation (stamp : Stamp) (caseId : JsString) (actor : Actor) (call : SituationCall)
    (origin : JsString) : CaseM CaseRow := do
  let _ ← orError (env.canonicalClientTime call.clientTime)
  Sql.demand (isSafeInteger call.expectedVersion = true ∧ 0 ≤ call.expectedVersion)
    (.error "expectedVersion must be a non-negative safe integer")
  let row ← requireCase caseId
  let p ← orError (preparedCall env row.situation call)
  let result ← updateSituationAtomic stamp caseId actor p origin
  Sql.lift result.row

def addParticipant (stamp : Stamp) (caseId : JsString) (actor : Actor)
    (participant : ParticipantIdentityRow) (origin : JsString) : CaseM CaseRow := do
  let _ ← requireCase caseId
  Sql.atomic do
    addParticipantRow caseId participant
    appendTimeline caseId
      { kind := "membership", actor, targetId := some participant.identityId, clientTime := none
        payload := .object [("username", .string participant.username)] } (stamp.now 0)
    auditAppend ⟨actor.id, "case_membership",
      caseId ++ JsString.ofString ":" ++ participant.identityId, origin, .success⟩
    requireCase caseId

def setLegalHold (stamp : Stamp) (caseId : JsString) (actor : Actor) (legalHold : Bool)
    (origin : JsString) : CaseM CaseRow :=
  Sql.atomic do
    let _ ← requireLocked caseId
    updateCaseLegalHold caseId legalHold
    appendTimeline caseId
      { kind := "legal_hold", actor, targetId := some caseId, clientTime := none
        payload := .object [("legalHold", .bool legalHold)] } (stamp.now 0)
    auditAppend ⟨actor.id, "legal_hold", caseId ++ JsString.ofString (":" ++ toString legalHold),
      origin, .success⟩
    requireCase caseId

/-! ## Resolutions -/

/-- `record` of the resolution service. -/
def recordResolution (stamp : Stamp) (caseId : JsString) (actor : Actor) (input : ResolutionInput)
    (origin : JsString) : CaseM Unit := do
  let content ← orError (env.readResolution (stamp.now 0) input.content)
  let active ← activeForCase caseId
  let currentRevision : Nat := (active.map (·.revision)).getD 0
  Sql.demand (∀ expected ∈ input.expectedRevision, expected = (currentRevision : Rat))
    (.resolutionRevisionConflict currentRevision)
  Sql.forSome active fun active => supersede active.id (stamp.now 1)
  insertResolution
    { id := stamp.uuid, caseId, revision := currentRevision + 1
      predecessorRevision := if currentRevision = 0 then none else some currentRevision
      content
      recordedAt := (stamp.now 1).toISOString
      recordedBy := actor.id
      recordedByUsername := actor.username
      supersededAt := none }
  appendDomainTimeline env caseId
    { kind := "investigation_resolution_recorded", actor, targetId := some stamp.uuid
      clientTime := none
      payload := .object [("basis", jsText content.basis),
        ("revision", .number (currentRevision + 1 : Nat)),
        ("unknowns", .number content.unknowns.length)] } (stamp.now 2)
  auditAppend ⟨actor.id, "investigation_resolution_record",
    caseId ++ JsString.ofString (":" ++ toString (currentRevision + 1)), origin, .success⟩

structure StatusChangeOptions where
  clientTime : Option JsString := none
  resolution : Option ResolutionInput := none
  expectedResolutionRevision : Option Rat := none

structure StatusCall where
  caseId : JsString
  actor : Actor
  status : CaseStatus
  origin : JsString
  options : StatusChangeOptions := {}

/-- Leaving a resolved status supersedes the resolution that is active. -/
def withdrawResolution (stamp : Stamp) (call : StatusCall) (previousStatus : CaseStatus) :
    CaseM Unit :=
  if statusRequiresResolution previousStatus then do
    let active ← activeForCase call.caseId
    Sql.forSome active fun active => do
      supersede active.id (stamp.now 0)
      auditAppend ⟨call.actor.id, "investigation_resolution_supersede",
        call.caseId ++ JsString.ofString (":" ++ toString active.revision), call.origin, .success⟩
  else pure ()

def confirmResolution (call : StatusCall) : CaseM Unit := do
  match ← activeForCase call.caseId with
  | none =>
    auditAppend ⟨call.actor.id, "case_status",
      call.caseId ++ JsString.ofString (":" ++ call.status.text), call.origin, .denied⟩
    Sql.fail (.resolutionRequired call.status)
  | some active =>
    Sql.demand (∀ expected ∈ call.options.expectedResolutionRevision, expected = active.revision)
      (.resolutionRevisionConflict active.revision)

def authorizeStatus (stamp : Stamp) (call : StatusCall) (previousStatus : CaseStatus) :
    CaseM Unit :=
  if statusRequiresResolution call.status = false then withdrawResolution stamp call previousStatus
  else
    match call.options.resolution with
    | some supplied =>
      recordResolution env stamp call.caseId call.actor
        { supplied with
          expectedRevision := supplied.expectedRevision <|> call.options.expectedResolutionRevision }
        call.origin
    | none => confirmResolution call

/-! ## The status -/

/-- What a status change found before its transaction. -/
structure StatusPreview where
  clientTime : Option JsString
  authorizedPreviousStatus : Option CaseStatus := none
  previewWasLifecycle : Bool := false

/-- `setStatus` up to its transaction. -/
def previewStatus (stamp : Stamp) (call : StatusCall) : CaseM StatusPreview := do
  let clientTime ← orError (env.canonicalClientTime call.options.clientTime)
  if env.resolutionGuard then do
    let row ← requireCase call.caseId
    if isLifecycleTransition row.status call.status then
      pure { clientTime, previewWasLifecycle := true }
    else do
      authorizeStatus env stamp call row.status
      pure { clientTime, authorizedPreviousStatus := some row.status }
  else pure { clientTime }

def writeStatus (now : UtcTime) (caseId : JsString) (actor : Actor) (status : CaseStatus)
    (clientTime : Option JsString) (origin : JsString) : CaseM CaseRow := do
  updateCaseStatus caseId status
  appendTimeline caseId
    { kind := "case_status", actor, targetId := some caseId, clientTime
      payload := .object [("status", jsText status.text)] } now
  auditAppend ⟨actor.id, "case_status", caseId ++ JsString.ofString (":" ++ status.text), origin,
    .success⟩
  requireCase caseId

/-- The transaction of `setStatus`. -/
def changeStatus (now : UtcTime) (call : StatusCall) (preview : StatusPreview) : CaseM CaseRow :=
  Sql.atomic do
    let row ← requireLocked call.caseId
    Sql.demand (isLifecycleTransition row.status call.status = false)
      (.lifecycleActionRequired call.caseId
        (if call.status = ARCHIVED_STATUS then .archive else .restore))
    Sql.demand (env.resolutionGuard = true ∨ statusRequiresResolution call.status = false)
      (.resolutionRequired call.status)
    Sql.demand (env.resolutionGuard = true → preview.previewWasLifecycle = false ∧
        preview.authorizedPreviousStatus = some row.status) (.statusChanged row.status)
    writeStatus now call.caseId call.actor call.status preview.clientTime call.origin

def setStatus (stamp : Stamp) (call : StatusCall) : CaseM CaseRow := do
  let preview ← previewStatus env stamp call
  changeStatus env (stamp.now 3) call preview

/-! ## Archiving and restoring -/

def historyEntry (row : TimelineRow) : Option StatusHistoryEntry :=
  if row.kind ≠ "case_status" then none
  else
    match row.payload with
    | .object fields =>
      match ownProperty "status" fields with
      | some (.string status) => some ⟨status, row.seq, row.serverTime⟩
      | _ => none
    | _ => none

def statusHistory (rows : List TimelineRow) : List StatusHistoryEntry := rows.filterMap historyEntry

def lifecycleOf (caseId : JsString) (row : CaseRow) (rows : List TimelineRow) :
    InvestigationLifecycleV1 :=
  let subject : LifecycleSubject := ⟨row.status, row.legalHold⟩
  let history := statusHistory rows
  { investigationId := caseId
    status := row.status
    legalHold := row.legalHold
    archive := evaluateArchive subject
    restore := evaluateRestore env.date subject history
    restoreTarget := restoreTarget env.date history }

def InvestigationLifecycleV1.verdict (current : InvestigationLifecycleV1) :
    LifecycleAction → LifecycleVerdict
  | .archive => current.archive
  | .restore => current.restore

def LifecycleVerdict.target (investigationId : JsString) : LifecycleVerdict → Except Thrown CaseStatus
  | .allowed _ targetStatus => .ok targetStatus
  | .refused action reason detail => .error (.lifecycleRefused investigationId action reason detail)

/-- A restore to a resolved status needs the resolution that the archive has kept. -/
def authorizeRestore (stamp : Stamp) (request : InvestigationLifecycleActionRequestV1)
    (actor : Actor) (origin : JsString) (appliedStatus previousStatus : CaseStatus) : CaseM Unit :=
  if request.action = .restore ∧ statusRequiresResolution appliedStatus = true then do
    Sql.demand (env.resolutionGuard = true) (.resolutionRequired appliedStatus)
    authorizeStatus env stamp ⟨request.investigationId, actor, appliedStatus, origin, {}⟩
      previousStatus
  else pure ()

structure InvestigationLifecycleActionSuccessV1 where
  investigationId : JsString
  action : LifecycleAction
  previousStatus : CaseStatus
  appliedStatus : CaseStatus
  row : CaseRow

def applyLifecycleAction (stamp : Stamp) (request : InvestigationLifecycleActionRequestV1)
    (actor : Actor) (origin : JsString) : CaseM InvestigationLifecycleActionSuccessV1 := do
  let clientTime ← orError (env.canonicalClientTime request.clientTime)
  Sql.atomic do
    let row ← requireLocked request.investigationId
    let rows ← listTimeline request.investigationId
    let current := lifecycleOf env request.investigationId row rows
    Sql.demand (request.expected = ⟨current.status, current.legalHold, current.restoreTarget⟩)
      (.lifecycleChanged ⟨request.investigationId, request.action, current⟩)
    let appliedStatus ←
      Sql.lift ((current.verdict request.action).target request.investigationId)
    authorizeRestore env stamp request actor origin appliedStatus row.status
    let updated ← writeStatus (stamp.now 3) request.investigationId actor appliedStatus clientTime
      origin
    pure ⟨request.investigationId, request.action, row.status, appliedStatus, updated⟩

theorem undoes_applyLifecycleAction (stamp : Stamp)
    (request : InvestigationLifecycleActionRequestV1) (actor : Actor) (origin : JsString) :
    Sql.Undoes (applyLifecycleAction env stamp request actor origin) :=
  Sql.undoes_bind (Sql.reads_lift _) fun _ => Sql.undoes_atomic _

/-! ## Contributions -/

def latestOf (caseId : JsString) (chain : List RevisionRow) : Except Thrown RevisionRow :=
  match chain.head?, chain.getLast? with
  | some first, some latest =>
    if first.caseId = caseId then .ok latest else .error (.error "contribution not found")
  | _, _ => .error (.error "contribution not found")

def requireLatest (caseId contributionId : JsString) : CaseM RevisionRow := do
  let chain ← listRevisions contributionId
  Sql.lift (latestOf caseId chain)

/-- A unique violation is a conflict with the revision that is there. -/
def onUniqueViolation {α : Type} (caseId contributionId : JsString) : Thrown → CaseM α
  | .uniqueViolation => do
    let latest ← requireLatest caseId contributionId
    Sql.fail (.contributionConflict latest.revision)
  | e => Sql.fail e

def ContributionKind.text : ContributionKind → String
  | .message => "message"
  | .note => "note"
  | .hypothesis => "hypothesis"
  | .action => "action"
  | .upload => "upload"
  | .external_run => "external_run"
  | .handoff => "handoff"

def reviseContribution (stamp : Stamp) (caseId contributionId : JsString) (actor : Actor)
    (body origin : JsString) (expectedRevision : Rat) (clientTime : Option JsString) :
    CaseM RevisionRow := do
  Sql.demand (expectedRevision.den = 1 ∧ 1 ≤ expectedRevision)
    (.error "expectedRevision is required")
  Sql.handle (Sql.atomic do
    let canonicalTime ← orError (env.canonicalClientTime clientTime)
    let latest ← requireLatest caseId contributionId
    Sql.demand (latest.tombstone = false) (.error "contribution not found")
    Sql.demand ((latest.revision : Rat) = expectedRevision)
      (.contributionConflict latest.revision)
    let next : RevisionRow :=
      { latest with
        revision := latest.revision + 1
        predecessorRevision := some latest.revision
        body
        contentHash := env.hashContributionContent latest.kind body
        authorId := actor.id
        authorUsername := actor.username
        createdAt := (stamp.now 0).toISOString
        tombstone := false }
    insertRevision next
    appendTimeline caseId
      { kind := "contribution_revised", actor, targetId := some contributionId
        clientTime := canonicalTime
        payload := .object [("kind", jsText next.kind.text), ("revision", .number next.revision),
          ("predecessor", .number latest.revision),
          ("contentHash", .string next.contentHash)] } (stamp.now 1)
    auditAppend ⟨actor.id, "contribution_revise",
      contributionId ++ JsString.ofString (":" ++ toString next.revision), origin, .success⟩
    pure next)
    (onUniqueViolation caseId contributionId)

def tombstoneLatest (stamp : Stamp) (caseId contributionId : JsString) (actor : Actor)
    (origin : JsString) (latest : RevisionRow) : CaseM RevisionRow := do
  let next := tombstoneOf env.hashContributionContent
    ⟨contributionId, actor, (stamp.now 0).toISOString⟩ latest
  insertRevision next
  appendTimeline caseId
    { kind := "contribution_tombstoned", actor, targetId := some contributionId, clientTime := none
      payload := .object [("kind", jsText latest.kind.text), ("revision", .number next.revision),
        ("tombstone", .bool true)] } (stamp.now 1)
  auditAppend ⟨actor.id, "contribution_tombstone", contributionId, origin, .success⟩
  pure next

def tombstoneContribution (stamp : Stamp) (caseId contributionId : JsString) (actor : Actor)
    (origin : JsString) : CaseM RevisionRow :=
  Sql.handle (Sql.atomic do
    let row ← requireCase caseId
    Sql.demand (row.legalHold = false) .legalHold
    let latest ← requireLatest caseId contributionId
    if latest.tombstone then pure latest
    else tombstoneLatest env stamp caseId contributionId actor origin latest)
    (onUniqueViolation caseId contributionId)

def HypothesisStatus.text : HypothesisStatus → String
  | .proposed => "proposed"
  | .supported => "supported"
  | .contradicted => "contradicted"
  | .superseded => "superseded"

def HypothesisLink.toJs (link : HypothesisLink) : JsValue :=
  .object [("kind", jsText (match link.kind with
    | .artifact => "artifact"
    | .contribution => "contribution")), ("id", .string link.id)]

def linkBelongs (caseId : JsString) (link : HypothesisLink) : CaseM Bool :=
  match link.kind with
  | .artifact => do
    let artifact ← getArtifact link.id
    pure (artifact.any (·.caseId = caseId))
  | .contribution => do
    let revisions ← listRevisions link.id
    pure (revisions ≠ [] ∧ revisions.all (·.caseId = caseId))

def checkLinks (caseId : JsString) (path : String) (index : Nat) : List HypothesisLink → CaseM Unit
  | [] => pure ()
  | link :: links => do
    let invalidReference := Thrown.contract (ContractViolation
      (path ++ "[" ++ toString index ++ "].id")
      "must reference an existing artifact or contribution in this investigation")
    Sql.demand (env.isRfc4122Uuid link.id = true) invalidReference
    let belongsToCase ← linkBelongs caseId link
    Sql.demand (belongsToCase = true) invalidReference
    checkLinks caseId path (index + 1) links

def validatedHypothesisLinks (caseId : JsString) (raw : JsValue) (path : String) :
    CaseM (List HypothesisLink) := do
  let links ← orContract (env.parseHypothesisLinks raw path)
  checkLinks env caseId path 0 links
  pure links

def writeHypothesis (stamp : Stamp) (caseId contributionId : JsString) (actor : Actor)
    (status : HypothesisStatus) (links : List HypothesisLink) (origin : JsString)
    (canonicalTime : Option JsString) (latest : RevisionRow) : CaseM RevisionRow := do
  let next : RevisionRow :=
    { latest with
      revision := latest.revision + 1
      predecessorRevision := some latest.revision
      contentHash := env.hashContributionContent latest.kind latest.body
      authorId := actor.id
      authorUsername := actor.username
      createdAt := (stamp.now 0).toISOString
      hypothesisStatus := some status
      hypothesisLinks := links }
  insertRevision next
  appendTimeline caseId
    { kind := "hypothesis_status", actor, targetId := some contributionId
      clientTime := canonicalTime
      payload := .object [("kind", jsText next.kind.text), ("revision", .number next.revision),
        ("status", jsText status.text), ("links", .array (links.map (·.toJs)))] } (stamp.now 1)
  auditAppend ⟨actor.id, "hypothesis_status",
    contributionId ++ JsString.ofString (":" ++ status.text), origin, .success⟩
  pure next

def setHypothesisStatus (stamp : Stamp) (caseId contributionId : JsString) (actor : Actor)
    (status : HypothesisStatus) (linksInput : JsValue) (origin : JsString)
    (clientTime : Option JsString) : CaseM RevisionRow := do
  let canonicalTime ← orError (env.canonicalClientTime clientTime)
  Sql.handle (Sql.atomic do
    let latest ← requireLatest caseId contributionId
    Sql.demand (latest.kind = .hypothesis ∧ latest.tombstone = false)
      (.error "hypothesis not found")
    let links ← validatedHypothesisLinks env caseId linksInput "$.links"
    Sql.demand (status ≠ .supported ∨ links ≠ [])
      (.error "supported hypothesis must link to at least one artifact or contribution")
    if latest.hypothesisStatus = some status ∧ latest.hypothesisLinks = links then pure latest
    else
      writeHypothesis env stamp caseId contributionId actor status links origin canonicalTime latest)
    (onUniqueViolation caseId contributionId)

/-! ## Snapshots -/

structure SnapshotInput where
  evidenceIds : List JsString
  visibility : Option PrivacyClass := none
  protocolVersion : Option JsString := none
  clientTime : Option JsString := none
  /-- `undefined`, `null` or a revision. -/
  normalizationRevision : Option (Option Nat) := none

def snapshotFairness (evidence : List SnapshotEvidenceV1) : SnapshotFairnessClass :=
  if evidence.all fun item => (item.contentHash <|> item.expectedHash).isSome then .same_snapshot
  else .unknown

def listSnapshotsByCase (caseId : JsString) : CaseM (List SnapshotRow) :=
  CaseM.attempt fun db =>
    ((collect env.persistedSnapshot (db.snapshots.filter (·.caseId = caseId))).mapError
      .contract).map fun rows => (rows.mergeSort env.snapshotBefore, db)

def insertSnapshot (row : SnapshotRow) : CaseM Unit :=
  CaseM.attempt fun db =>
    match env.persistedSnapshot row with
    | .error e => .error (.contract e)
    | .ok snapshot =>
      if db.snapshots.any (·.id = snapshot.id) then .error (.error "snapshot already exists")
      else if db.snapshots.any fun existing =>
          existing.caseId = snapshot.caseId ∧ existing.fingerprint = snapshot.fingerprint then
        .error .snapshotFingerprintExists
      else .ok ((), { db with snapshots := db.snapshots ++ [snapshot] })

def selectEvidence (byId : JsString → Option ArtifactRow) (evidenceIds : List JsString) :
    Outcome (List SnapshotEvidenceV1) :=
  collect (fun (id, ordinal) => do
    let artifact ← require (byId id) "evidence not found"
    pure ⟨artifact.id, ordinal, artifact.contentHash, artifact.expectedHash,
      artifact.verificationStatus, artifact.privacyClass⟩) evidenceIds.zipIdx

/-- The snapshot that has the fingerprint already, if the insertion meets one. -/
def onFingerprintExists (caseId fingerprint : JsString) : Thrown → CaseM (Option SnapshotRow)
  | .snapshotFingerprintExists => do
    let rows ← listSnapshotsByCase env caseId
    let found ← Sql.orFail (rows.find? (·.fingerprint = fingerprint)) .snapshotFingerprintExists
    pure (some found)
  | e => Sql.fail e

def freezeSnapshot (stamp : Stamp) (caseId : JsString) (actor : Actor) (origin : JsString)
    (clientTime : Option JsString) (row : SnapshotRow) : CaseM SnapshotRow := do
  let found ← Sql.handle (do
    insertSnapshot env row
    pure none) (onFingerprintExists env caseId row.fingerprint)
  match found with
  | some found => pure found
  | none =>
    appendTimeline caseId
      { kind := "snapshot_frozen", actor, targetId := some row.id, clientTime
        payload := .object [("fingerprint", .string row.fingerprint),
          ("parentSnapshotId", jsNullable .string row.parentSnapshotId),
          ("evidenceCount", .number row.evidence.length),
          ("visibility", jsText row.visibility.text)] } (stamp.now 1)
    auditAppend ⟨actor.id, "snapshot_freeze", row.id, origin, .success⟩
    pure row

def createSnapshot (stamp : Stamp) (caseId : JsString) (actor : Actor) (input : SnapshotInput)
    (origin : JsString) : CaseM SnapshotRow := do
  let clientTime ← orError (env.canonicalClientTime input.clientTime)
  let _ ← requireCase caseId
  Sql.demand input.evidenceIds.Nodup (.error "snapshot evidence ids must be unique")
  let protocolVersion := input.protocolVersion.getD (JsString.ofString "cd-collab.snapshot.v1")
  Sql.atomic do
    let _ ← requireCase caseId
    let byId ← listArtifactsByCase caseId
    let evidence ← orError (selectEvidence byId input.evidenceIds)
    let existing ← listSnapshotsByCase env caseId
    let parentSnapshotId := existing.getLast?.map (·.id)
    let visibility := input.visibility.getD .owner_only
    Sql.demand (visibility ≠ .share_safe ∨ evidence.all (·.privacyClass = .share_safe) = true)
      (.error "share-safe snapshot cannot include owner-only evidence")
    let normalizationRevision :=
      input.normalizationRevision.getD (env.normalizationRevisionFor caseId)
    let fingerprint := env.snapshotFingerprint
      ⟨parentSnapshotId, evidence, visibility, protocolVersion, normalizationRevision⟩
    match existing.find? (·.fingerprint = fingerprint) with
    | some replay => pure replay
    | none =>
      freezeSnapshot env stamp caseId actor origin clientTime
        { id := stamp.uuid, caseId, fingerprint, parentSnapshotId, evidence, visibility
          protocolVersion, normalizationRevision
          fairnessClass := snapshotFairness evidence
          createdAt := (stamp.now 0).toISOString
          createdBy := actor.id }

/-! ## Calls -/

inductive CaseCall where
  | createCase (actor : Actor) (input : CreateCaseInput) (origin : JsString)
  | setOccurredAt (caseId : JsString) (actor : Actor) (input : OccurredAtInput)
      (origin : JsString) (clientTime : Option JsString)
  | updateSituation (caseId : JsString) (actor : Actor) (call : SituationCall) (origin : JsString)
  | setStatus (call : StatusCall)
  | applyLifecycleAction (request : InvestigationLifecycleActionRequestV1) (actor : Actor)
      (origin : JsString)
  | addParticipant (caseId : JsString) (actor : Actor) (participant : ParticipantIdentityRow)
      (origin : JsString)
  | setLegalHold (caseId : JsString) (actor : Actor) (legalHold : Bool) (origin : JsString)
  | reviseContribution (caseId contributionId : JsString) (actor : Actor) (body origin : JsString)
      (expectedRevision : Rat) (clientTime : Option JsString)
  | tombstoneContribution (caseId contributionId : JsString) (actor : Actor) (origin : JsString)
  | setHypothesisStatus (caseId contributionId : JsString) (actor : Actor)
      (status : HypothesisStatus) (linksInput : JsValue) (origin : JsString)
      (clientTime : Option JsString)
  | createSnapshot (caseId : JsString) (actor : Actor) (input : SnapshotInput) (origin : JsString)

def runCall (stamp : Stamp) : CaseCall → CaseM Unit
  | .createCase actor input origin => Sql.void (createCase env stamp actor input origin)
  | .setOccurredAt caseId actor input origin clientTime =>
    Sql.void (setOccurredAt env stamp caseId actor input origin clientTime)
  | .updateSituation caseId actor call origin =>
    Sql.void (updateSituation env stamp caseId actor call origin)
  | .setStatus call => Sql.void (setStatus env stamp call)
  | .applyLifecycleAction request actor origin =>
    Sql.void (applyLifecycleAction env stamp request actor origin)
  | .addParticipant caseId actor participant origin =>
    Sql.void (addParticipant stamp caseId actor participant origin)
  | .setLegalHold caseId actor legalHold origin =>
    Sql.void (setLegalHold stamp caseId actor legalHold origin)
  | .reviseContribution caseId contributionId actor body origin expectedRevision clientTime =>
    Sql.void (reviseContribution env stamp caseId contributionId actor body origin
      expectedRevision clientTime)
  | .tombstoneContribution caseId contributionId actor origin =>
    Sql.void (tombstoneContribution env stamp caseId contributionId actor origin)
  | .setHypothesisStatus caseId contributionId actor status linksInput origin clientTime =>
    Sql.void (setHypothesisStatus env stamp caseId contributionId actor status linksInput origin
      clientTime)
  | .createSnapshot caseId actor input origin =>
    Sql.void (createSnapshot env stamp caseId actor input origin)

end

/-- An environment in which everything is read as it is. -/
def plainEnv : CaseEnv where
  date := plainDate
  nfkc := ⟨id, fun _ _ => rfl⟩
  canonicalClientTime := .ok
  normalizeOccurredAt _ input :=
    match input.occurredAt with
    | some (.string s) => .ok ⟨some s, .day, .unspecified⟩
    | _ => .ok ⟨none, .unknown, .unspecified⟩
  hashContributionContent _ body := body
  parseHypothesisLinks _ _ := .ok []
  isRfc4122Uuid _ := true
  snapshotFingerprint input := input.protocolVersion
  persistedSnapshot := .ok
  snapshotBefore _ _ := true
  normalizationRevisionFor _ := none
  readResolution _ _ := .error "unknown resolution basis"
  resolutionGuard := true

def noon : UtcTime := ⟨2026, 1, 1, 12, 0, 0, 0, by decide⟩

def noonStamp : Stamp := ⟨fun _ => noon, [9]⟩

end ContextDesk
