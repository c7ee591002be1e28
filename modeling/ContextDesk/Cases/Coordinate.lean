import ContextDesk.Cases.Permits

/-!
# Coordinating an investigation

`coordinateInvestigation` takes one action under the lock of the case. A key that has succeeded is
answered with the text that was stored then; otherwise `coordinationResponse` decides from the row of
the case and the stored projection, and four statements write what it decided.
-/

namespace ContextDesk

open Lib

def CaseRow.participant (row : CaseRow) (identityId : JsString) : Option ParticipantIdentityRow :=
  row.participants.find? (·.identityId = identityId)

/-- The projection of a stored row, as it is before it is parsed. -/
def storedProjection (caseId : JsString) (row : CaseRow) :
    Option InvestigationCoordinationRow → InvestigationCoordinationV1
  | none => ⟨caseId, none, 0, none, none, decide (row.status = ARCHIVED_STATUS)⟩
  | some stored => ⟨caseId, stored.coordinator, stored.revision, some stored.updatedAt,
      some stored.updatedBy, decide (row.status = ARCHIVED_STATUS)⟩

def InvestigationCoordinationRefusal.detail : InvestigationCoordinationRefusal → String
  | .investigation_archived => "The investigation is archived."
  | .occupied => "Another participant is currently coordinating this investigation."
  | .already_coordinator =>
    "The selected participant is already coordinating this investigation."
  | .not_coordinator => "Only the current coordinator can release their own coordination."
  | .target_not_coordinator => "The selected participant is not the current coordinator."
  | .target_not_eligible => "The selected identity is not an eligible current participant."
  | .actor_not_eligible => "The current actor is not an eligible current participant."
  | .idempotency_intent_mismatch =>
    "This idempotency key was already used for a different coordination intent."

/-- Membership and eligibility are those of the locked row; a holder that left it can still be
named. -/
def coordinationSubject (row : CaseRow) (current : InvestigationCoordinationV1) (actor : Actor)
    (targetIdentityId : Option JsString) : InvestigationCoordinationEvaluationSubject where
  archived := current.archived
  revision := current.revision
  coordinator := current.coordinator
  actor := ⟨actor.id, (row.participant actor.id).isSome⟩
  target := targetIdentityId.bind fun id =>
    match row.participant id with
    | some participant => some ⟨participant.identityId, true⟩
    | none => if idOf current.coordinator = some id then some ⟨id, false⟩ else none

def nextCoordinator (row : CaseRow) (actor : Actor) (targetIdentityId : Option JsString) :
    Option JsString → Option InvestigationCoordinatorIdentityV1
  | none => none
  | some id =>
    if id = actor.id then
      some ⟨actor.id, ((row.participant actor.id).map (·.username)).getD actor.username⟩
    else targetIdentityId.bind row.participant

def assertCoordinationSuccessContext (success : InvestigationCoordinationActionSuccessV1)
    (input : InvestigationCoordinationActionRequestV1) (actor : Actor) : Outcome Unit := do
  ensure (success.investigationId = input.investigationId ∧ success.action = input.action ∧
      success.targetIdentityId = input.targetIdentityId ∧
      idOf success.applied.updatedBy = some actor.id)
    "investigation coordination success context mismatch"
  ensure (input.action ≠ .claim_self ∨ idOf success.applied.coordinator = some actor.id)
    "investigation coordination self-claim actor mismatch"
  ensure (input.action ≠ .release_self ∨ idOf success.previousCoordinator = some actor.id)
    "investigation coordination self-release actor mismatch"

section

variable (env : CaseEnv)

def coordinationProjection (caseId : JsString) (row : CaseRow)
    (stored : Option InvestigationCoordinationRow) : Except Thrown InvestigationCoordinationV1 :=
  (parseInvestigationCoordination env.nfkc env.date (storedProjection caseId row stored).toJs
    "$").mapError .contract

def coordinationRefused (input : InvestigationCoordinationActionRequestV1)
    (current : InvestigationCoordinationV1) (reason : InvestigationCoordinationRefusal) :
    Except Thrown InvestigationCoordinationActionRefusedV1 :=
  (parseInvestigationCoordinationActionRefused env.nfkc env.date
    (InvestigationCoordinationActionRefusedV1.toJs ⟨input.investigationId, input.action,
      input.targetIdentityId, reason, JsString.ofString reason.detail, current⟩)).mapError .contract

def assertCoordinationReplayContext (successJson : JsValue)
    (input : InvestigationCoordinationActionRequestV1) (actor : Actor) : Except Thrown Unit := do
  let success ← (parseInvestigationCoordinationActionSuccess env.nfkc env.date
    successJson).mapError .contract
  (assertCoordinationSuccessContext success input actor).mapError .error

/-- The row and the response of an action that is allowed. -/
def allowedResponse (caseId : JsString) (row : CaseRow) (actor : Actor)
    (input : InvestigationCoordinationActionRequestV1) (updatedAt : UtcTime)
    (current : InvestigationCoordinationV1) (previousRevision : Nat) (next : Option JsString) :
    Except Thrown (InvestigationCoordinationRow × InvestigationCoordinationActionSuccessV1) := do
  let coordinator := nextCoordinator row actor input.targetIdentityId next
  (ensure (next = none ∨ coordinator ≠ none)
    "eligible coordination target disappeared while case lock was held").mapError .error
  let projectionRow : InvestigationCoordinationRow :=
    ⟨caseId, coordinator, previousRevision + 1, updatedAt.toISOString, ⟨actor.id, actor.username⟩⟩
  let applied ← coordinationProjection env caseId row (some projectionRow)
  let success ← (parseInvestigationCoordinationActionSuccess env.nfkc env.date
    (InvestigationCoordinationActionSuccessV1.toJs ⟨caseId, input.action, input.targetIdentityId,
      previousRevision, current.coordinator, applied⟩)).mapError .contract
  (assertCoordinationSuccessContext success input actor).mapError .error
  pure (projectionRow, success)

/-- What the verdict is answered with; everything but an allowed action is thrown. -/
def verdictResponse (caseId : JsString) (row : CaseRow) (actor : Actor)
    (input : InvestigationCoordinationActionRequestV1) (updatedAt : UtcTime)
    (current : InvestigationCoordinationV1) : InvestigationCoordinationEvaluation →
    Except Thrown (InvestigationCoordinationRow × InvestigationCoordinationActionSuccessV1)
  | .refused reason => do
    let refusal ← coordinationRefused env input current reason
    .error (.coordinationRefused refusal)
  | .changed _ => do
    let changed ← (parseInvestigationCoordinationChanged env.nfkc env.date
      (InvestigationCoordinationChangedV1.toJs ⟨caseId, input.action, input.targetIdentityId,
        current⟩)).mapError .contract
    .error (.coordinationChanged changed)
  | .allowed previousRevision next =>
    allowedResponse env caseId row actor input updatedAt current previousRevision next

def coordinationResponse (caseId : JsString) (row : CaseRow)
    (stored : Option InvestigationCoordinationRow) (actor : Actor)
    (input : InvestigationCoordinationActionRequestV1) (updatedAt : UtcTime) :
    Except Thrown (InvestigationCoordinationRow × InvestigationCoordinationActionSuccessV1) := do
  let current ← coordinationProjection env caseId row stored
  verdictResponse env caseId row actor input updatedAt current
    (evaluateInvestigationCoordination input.action input.expectedRevision
      (coordinationSubject row current actor input.targetIdentityId))

/-- A key that has succeeded: the stored text, unless the intent is another one. -/
def replayCoordination (caseId : JsString) (row : CaseRow) (actor : Actor)
    (input : InvestigationCoordinationActionRequestV1)
    (prior : InvestigationCoordinationSuccessIntent) : CaseM JsValue :=
  if prior.action ≠ input.action ∨ prior.targetIdentityId ≠ input.targetIdentityId then do
    let stored ← getInvestigationCoordination caseId
    let current ← Sql.lift (coordinationProjection env caseId row stored)
    let refusal ← Sql.lift (coordinationRefused env input current .idempotency_intent_mismatch)
    Sql.fail (.coordinationRefused refusal)
  else do
    Sql.lift (assertCoordinationReplayContext env prior.successJson input actor)
    pure prior.successJson

def actionText (input : InvestigationCoordinationActionRequestV1) (actor : Actor) : JsString :=
  JsString.ofString (":" ++ input.action.text ++ ":") ++ input.targetIdentityId.getD actor.id

/-- The projection row, the event, the audit record and the intent of an applied action. -/
def applyCoordination (stamp : Stamp) (caseId : JsString) (row : CaseRow) (actor : Actor)
    (input : InvestigationCoordinationActionRequestV1) (origin : JsString) : CaseM JsValue := do
  let stored ← getInvestigationCoordination caseId
  let (projectionRow, success) ← Sql.lift
    (coordinationResponse env caseId row stored actor input (stamp.now 0))
  saveInvestigationCoordination projectionRow
  let clientTime ← orError (env.canonicalClientTime input.clientTime)
  appendTimeline caseId
    { kind := "investigation_coordination_changed", actor, targetId := some caseId, clientTime
      payload := .object [("action", jsText input.action.text),
        ("targetIdentityId", jsNullable .string input.targetIdentityId),
        ("previousRevision", .number success.previousRevision),
        ("revision", .number success.applied.revision),
        ("previousCoordinator",
          jsNullable InvestigationCoordinatorIdentityV1.toJs success.previousCoordinator),
        ("current", success.applied.toJs)] } (stamp.now 1)
  auditAppend ⟨actor.id, "investigation_coordination_changed", caseId ++ actionText input actor,
    origin, .success⟩
  insertInvestigationCoordinationSuccessIntent
    ⟨caseId, actor.id, input.idempotencyKey, input.action, input.targetIdentityId, success.toJs,
      (stamp.now 0).toISOString⟩
  pure success.toJs

def coordinateInvestigation (stamp : Stamp) (routeCaseId : JsString) (actor : Actor)
    (isAdmin : Bool) (input : InvestigationCoordinationActionRequestV1) (origin : JsString) :
    CaseM JsValue :=
  Sql.atomic do
    let row ← requireLocked routeCaseId
    Sql.demand ((isAdmin || row.isMember actor.id) = true) (.error "case not found")
    match ← getInvestigationCoordinationSuccessIntent routeCaseId actor.id input.idempotencyKey with
    | some prior => replayCoordination env routeCaseId row actor input prior
    | none => applyCoordination env stamp routeCaseId row actor input origin

end

variable {R : CaseDb → CaseDb → Prop} {env : CaseEnv}

theorem made_coordinateInvestigation (hR : Permits R) (hrow : ∀ db row, R db (db.coordinated row))
    (hintent : ∀ db row, db.investigationCoordinationSuccessIntents row.key = none →
      R db (db.intended row)) {stamp : Stamp} {routeCaseId origin : JsString}
    {actor : Actor} {isAdmin : Bool} {input : InvestigationCoordinationActionRequestV1} :
    Sql.Made .failed R
      (coordinateInvestigation env stamp routeCaseId actor isAdmin input origin) := by
  refine .atomic (.bind (made_requireLocked hR.refl) fun row => .bind (.lift _) fun _ =>
    .bind (made_select hR.refl) fun prior => ?_)
  cases prior with
  | some prior =>
    exact .ite (.bind (made_select hR.refl) fun _ => .bind (.lift _) fun _ => .bind (.lift _)
      fun _ => .fail _) (.bind (.lift _) fun _ => .pure _)
  | none =>
    refine .bind (made_select hR.refl) fun _ => .bind (.lift _) fun response =>
      .bind (made_write fun db => hrow db _) fun _ => .bind (.lift _) fun _ =>
      .bind (made_event hR (by decide : "investigation_coordination_changed" ≠ "case_status"))
        fun _ => .bind (made_auditAppend hR) fun _ => .bind ?_ fun _ => .pure _
    refine made_attempt fun db a db' h => ?_
    split at h
    · cases h
    · cases h
      exact hintent db _ (Option.not_isSome_iff_eq_none.mp ‹_›)

/-! ## Moves on the store -/

/-- A statement that a call makes outside a transaction. -/
inductive LooseStatement where
  | updateOccurredAt (caseId : JsString) (occurrence : NormalizedOccurredAt)
  | appendTimeline (caseId : JsString) (event : TimelineInsert) (now : UtcTime)
  | auditAppend (record : AuditRecord)
  | supersede (id : JsString) (now : UtcTime)
  | insertResolution (row : ResolutionRow)

/-- What can happen to the store between two others: a call, the transaction of a status change
after any preview, or a loose statement of a call that is under way. -/
inductive ServiceMove where
  | call (stamp : Stamp) (call : CaseCall)
  | changeStatus (now : UtcTime) (call : StatusCall) (preview : StatusPreview)
  | coordinate (stamp : Stamp) (routeCaseId : JsString) (actor : Actor) (isAdmin : Bool)
      (input : InvestigationCoordinationActionRequestV1) (origin : JsString)
  | statement (statement : LooseStatement)

def runStatement : LooseStatement → CaseM Unit
  | .updateOccurredAt caseId occurrence => updateOccurredAt caseId occurrence
  | .appendTimeline caseId event now => appendTimeline caseId event now
  | .auditAppend record => auditAppend record
  | .supersede id now => supersede id now
  | .insertResolution row => insertResolution row

def runMove (env : CaseEnv) : ServiceMove → CaseM Unit
  | .call stamp call => runCall env stamp call
  | .changeStatus now call preview => Sql.void (changeStatus env now call preview)
  | .coordinate stamp routeCaseId actor isAdmin input origin =>
    Sql.void (coordinateInvestigation env stamp routeCaseId actor isAdmin input origin)
  | .statement statement => runStatement statement

structure ServiceAttempt where
  move : ServiceMove
  faults : List Bool := []

def ServiceAttempt.result (env : CaseEnv) (db : CaseDb) (a : ServiceAttempt) :
    Except Thrown Unit × Work CaseDb :=
  runMove env a.move ⟨db, a.faults⟩

def serviceStep (env : CaseEnv) (db : CaseDb) (a : ServiceAttempt) : CaseDb := (a.result env db).2.db

/-- The move concerns a case that is there: no other case takes its id, and only the status calls
write a `case_status` event. -/
def ServiceAttempt.On (caseId : JsString) (a : ServiceAttempt) : Prop :=
  match a.move with
  | .call stamp (.createCase ..) => stamp.uuid ≠ caseId
  | .statement (.appendTimeline _ event _) => event.kind ≠ "case_status"
  | _ => True

theorem made_runStatement (hR : Permits R) {statement : LooseStatement}
    (hkind : ∀ caseId event now, statement = .appendTimeline caseId event now →
      event.kind ≠ "case_status") : Sql.Made .failed R (runStatement statement) := by
  cases statement with
  | updateOccurredAt caseId occurrence =>
    exact made_updateCase fun db row hrow =>
      hR.row db caseId row _ hrow rfl (List.Subset.refl _)
  | appendTimeline caseId event now => exact made_event hR (hkind caseId event now rfl)
  | auditAppend record => exact made_auditAppend hR
  | supersede id now => exact made_supersede hR
  | insertResolution row => exact made_insertResolution hR

end ContextDesk
