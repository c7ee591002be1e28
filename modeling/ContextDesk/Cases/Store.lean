import ContextDesk.Cases.Coordination
import ContextDesk.Cases.LegalHold
import ContextDesk.Cases.Lifecycle
import ContextDesk.Cases.SituationRuns
import ContextDesk.Lib.Steps
import ContextDesk.Temporal.Occurrence

/-!
# The case store

The rows of the case store with the resolutions and the audit log, and the statements of the memory
stores. A statement is one step, and a fault makes it throw `failed`. A JSON text is kept as the
value that it was written from.
-/

namespace ContextDesk

open Lib

/-! ## Rows -/

inductive CaseSeverity where
  | low
  | medium
  | high
  | critical
  deriving DecidableEq

abbrev ParticipantIdentityRow := InvestigationCoordinatorIdentityV1

/-- A row, without the id that it is kept under. -/
structure CaseRow where
  title : JsString
  /-- The situation columns, with their version. -/
  situation : SituationRow
  occurrence : NormalizedOccurredAt
  severity : CaseSeverity
  status : CaseStatus
  legalHold : Bool
  retentionClass : String
  createdAt : JsString
  createdBy : JsString
  createdByUsername : JsString
  participants : List ParticipantIdentityRow

structure TimelineInsert where
  kind : String
  actor : Actor
  targetId : Option JsString
  clientTime : Option JsString
  payload : JsValue

structure TimelineRow where
  seq : Nat
  kind : String
  actorId : JsString
  actorUsername : JsString
  targetId : Option JsString
  clientTime : Option JsString
  serverTime : JsString
  payload : JsValue

inductive AuditOutcome where
  | success
  | denied
  | failure
  deriving DecidableEq

structure AuditRecord where
  identity : JsString
  action : String
  target : JsString
  origin : JsString
  outcome : AuditOutcome
  deriving DecidableEq

/-- What a snapshot and a link read of an artifact. -/
structure ArtifactRow where
  id : JsString
  caseId : JsString
  contentHash : Option JsString
  expectedHash : Option JsString
  verificationStatus : Option JsString
  privacyClass : PrivacyClass
  deriving DecidableEq

structure SnapshotEvidenceV1 where
  evidenceId : JsString
  ordinal : Nat
  contentHash : Option JsString
  expectedHash : Option JsString
  verificationStatus : Option JsString
  privacyClass : PrivacyClass
  deriving DecidableEq

inductive SnapshotFairnessClass where
  | same_snapshot
  | unknown
  deriving DecidableEq

structure SnapshotRow where
  id : JsString
  caseId : JsString
  fingerprint : JsString
  parentSnapshotId : Option JsString
  evidence : List SnapshotEvidenceV1
  visibility : PrivacyClass
  protocolVersion : JsString
  fairnessClass : SnapshotFairnessClass
  createdAt : JsString
  createdBy : JsString
  normalizationRevision : Option Nat
  deriving DecidableEq

structure InvestigationCoordinationRow where
  caseId : JsString
  coordinator : Option InvestigationCoordinatorIdentityV1
  revision : Nat
  updatedAt : JsString
  updatedBy : InvestigationCoordinatorIdentityV1
  deriving DecidableEq

structure InvestigationCoordinationSuccessIntent where
  caseId : JsString
  actorId : JsString
  idempotencyKey : JsString
  action : InvestigationCoordinationAction
  targetIdentityId : Option JsString
  successJson : JsValue
  createdAt : JsString

structure ResolutionContent where
  basis : String
  provenance : String
  rationale : JsString
  unknowns : List JsString
  experimentDecisionId : Option JsString
  exceptionReason : Option JsString
  citedArtifactIds : List JsString
  citedContributionIds : List JsString
  occurrence : NormalizedOccurredAt

structure ResolutionRow where
  id : JsString
  caseId : JsString
  revision : Nat
  predecessorRevision : Option Nat
  content : ResolutionContent
  recordedAt : JsString
  recordedBy : JsString
  recordedByUsername : JsString
  supersededAt : Option JsString

structure CaseDb where
  cases : JsString → Option CaseRow := fun _ => none
  timeline : JsString → List TimelineRow := fun _ => []
  revisions : JsString → List RevisionRow := fun _ => []
  artifacts : JsString → Option ArtifactRow := fun _ => none
  snapshots : List SnapshotRow := []
  investigationCoordinations : JsString → Option InvestigationCoordinationRow := fun _ => none
  /-- By case, actor and idempotency key. -/
  investigationCoordinationSuccessIntents :
    JsString × JsString × JsString → Option InvestigationCoordinationSuccessIntent := fun _ => none
  resolutions : List ResolutionRow := []
  audit : List AuditRecord := []

inductive Thrown where
  /-- A statement failed. -/
  | failed
  | error (message : String)
  | contract (violation : String)
  | legalHold
  | situationConflict (currentVersion : Nat)
  | contributionConflict (currentRevision : Nat)
  | uniqueViolation
  | snapshotFingerprintExists
  | resolutionRequired (status : CaseStatus)
  | resolutionRevisionConflict (currentRevision : Nat)
  | statusChanged (currentStatus : CaseStatus)
  | lifecycleActionRequired (investigationId : JsString) (action : LifecycleAction)
  | lifecycleChanged (conflict : InvestigationLifecycleChangedV1)
  | lifecycleRefused (investigationId : JsString) (action : LifecycleAction)
      (reason : LifecycleRefusal) (detail : String)
  | coordinationChanged (conflict : InvestigationCoordinationChangedV1)
  | coordinationRefused (refusal : InvestigationCoordinationActionRefusedV1)

/-! ## Statements -/

abbrev CaseM (α : Type) := Sql CaseDb Thrown α

def CaseM.attempt {α : Type} (f : CaseDb → Except Thrown (α × CaseDb)) : CaseM α :=
  Sql.step .failed f

def CaseM.select {α : Type} (f : CaseDb → α) : CaseM α := CaseM.attempt fun db => .ok (f db, db)

def CaseM.write (f : CaseDb → CaseDb) : CaseM Unit := CaseM.attempt fun db => .ok ((), f db)

def CaseDb.setCase (db : CaseDb) (id : JsString) (row : CaseRow) : CaseDb :=
  { db with cases := Function.update db.cases id (some row) }

def updateCase (id : JsString) (f : CaseRow → CaseRow) : CaseM Unit :=
  CaseM.attempt fun db =>
    match db.cases id with
    | none => .error (.error "case not found")
    | some row => .ok ((), db.setCase id (f row))

def getCase (id : JsString) : CaseM (Option CaseRow) := CaseM.select (·.cases id)

/-- The row under its lock; a transaction has the whole store. -/
def lockCase (id : JsString) : CaseM (Option CaseRow) := CaseM.select (·.cases id)

def insertCase (id : JsString) (row : CaseRow) : CaseM Unit :=
  CaseM.write fun db =>
    { db.setCase id row with timeline := Function.update db.timeline id [] }

def updateCaseStatus (id : JsString) (status : CaseStatus) : CaseM Unit :=
  updateCase id fun row => { row with status }

def updateCaseLegalHold (id : JsString) (legalHold : Bool) : CaseM Unit :=
  updateCase id fun row => { row with legalHold }

def updateOccurredAt (id : JsString) (occurrence : NormalizedOccurredAt) : CaseM Unit :=
  updateCase id fun row => { row with occurrence }

def CaseRow.isMember (row : CaseRow) (identityId : JsString) : Bool :=
  row.participants.any (·.identityId = identityId)

def addParticipantRow (caseId : JsString) (participant : ParticipantIdentityRow) : CaseM Unit :=
  updateCase caseId fun row =>
    if row.isMember participant.identityId then row
    else { row with participants := row.participants ++ [participant] }

def ARRAY_MAX_LENGTH : Nat := 2 ^ 32 - 1

def timelineRow (list : List TimelineRow) (event : TimelineInsert) (now : UtcTime) :
    TimelineRow where
  seq := list.length + 1
  kind := event.kind
  actorId := event.actor.id
  actorUsername := event.actor.username
  targetId := event.targetId
  clientTime := event.clientTime
  serverTime := now.toISOString
  payload := event.payload

def CaseDb.appended (db : CaseDb) (caseId : JsString) (event : TimelineInsert) (now : UtcTime) :
    CaseDb :=
  { db with
    timeline := Function.update db.timeline caseId
      (db.timeline caseId ++ [timelineRow (db.timeline caseId) event now]) }

def appendTimeline (caseId : JsString) (event : TimelineInsert) (now : UtcTime) : CaseM Unit :=
  CaseM.attempt fun db =>
    if (db.timeline caseId).length < ARRAY_MAX_LENGTH then .ok ((), db.appended caseId event now)
    else .error (.error "Invalid array length")

def listTimeline (caseId : JsString) : CaseM (List TimelineRow) := CaseM.select (·.timeline caseId)

def CaseDb.record (db : CaseDb) (record : AuditRecord) : CaseDb :=
  { db with audit := db.audit ++ [record] }

def auditAppend (record : AuditRecord) : CaseM Unit := CaseM.write (·.record record)

def listRevisions (contributionId : JsString) : CaseM (List RevisionRow) :=
  CaseM.select (·.revisions contributionId)

def CaseDb.revised (db : CaseDb) (rev : RevisionRow) : CaseDb :=
  { db with
    revisions := Function.update db.revisions rev.contributionId
      (db.revisions rev.contributionId ++ [rev]) }

def insertRevision (rev : RevisionRow) : CaseM Unit :=
  CaseM.attempt fun db =>
    if (db.revisions rev.contributionId).any (·.revision = rev.revision) then
      .error .uniqueViolation
    else .ok ((), db.revised rev)

def getArtifact (artifactId : JsString) : CaseM (Option ArtifactRow) :=
  CaseM.select (·.artifacts artifactId)

def listArtifactsByCase (caseId : JsString) : CaseM (JsString → Option ArtifactRow) :=
  CaseM.select fun db id => (db.artifacts id).filter (·.caseId = caseId)

def getInvestigationCoordination (caseId : JsString) :
    CaseM (Option InvestigationCoordinationRow) :=
  CaseM.select (·.investigationCoordinations caseId)

def CaseDb.coordinated (db : CaseDb) (row : InvestigationCoordinationRow) : CaseDb :=
  { db with
    investigationCoordinations :=
      Function.update db.investigationCoordinations row.caseId (some row) }

def saveInvestigationCoordination (row : InvestigationCoordinationRow) : CaseM Unit :=
  CaseM.write (·.coordinated row)

def getInvestigationCoordinationSuccessIntent (caseId actorId key : JsString) :
    CaseM (Option InvestigationCoordinationSuccessIntent) :=
  CaseM.select (·.investigationCoordinationSuccessIntents (caseId, actorId, key))

def InvestigationCoordinationSuccessIntent.key (row : InvestigationCoordinationSuccessIntent) :
    JsString × JsString × JsString :=
  (row.caseId, row.actorId, row.idempotencyKey)

def CaseDb.intended (db : CaseDb) (row : InvestigationCoordinationSuccessIntent) : CaseDb :=
  { db with
    investigationCoordinationSuccessIntents :=
      Function.update db.investigationCoordinationSuccessIntents row.key (some row) }

def insertInvestigationCoordinationSuccessIntent (row : InvestigationCoordinationSuccessIntent) :
    CaseM Unit :=
  CaseM.attempt fun db =>
    if (db.investigationCoordinationSuccessIntents row.key).isSome then
      .error (.error "investigation coordination idempotency key already exists")
    else .ok ((), db.intended row)

/-- The newest revision that is not superseded. -/
def CaseDb.activeResolution (db : CaseDb) (caseId : JsString) : Option ResolutionRow :=
  (((db.resolutions.filter (·.caseId = caseId)).mergeSort fun a b => b.revision ≤ a.revision).find?
    (·.supersededAt = none))

def activeForCase (caseId : JsString) : CaseM (Option ResolutionRow) :=
  CaseM.select (·.activeResolution caseId)

def supersede (id : JsString) (supersededAt : UtcTime) : CaseM Unit :=
  CaseM.attempt fun db =>
    if db.resolutions.any (·.id = id) then
      .ok ((), { db with
        resolutions := db.resolutions.map fun row =>
          if row.id = id ∧ row.supersededAt = none then
            { row with supersededAt := some supersededAt.toISOString }
          else row })
    else .error (.error "resolution not found")

def insertResolution (row : ResolutionRow) : CaseM Unit :=
  CaseM.attempt fun db =>
    let existing := (db.resolutions.filter (·.caseId = row.caseId)).mergeSort fun a b =>
      b.revision ≤ a.revision
    if existing.any (·.revision = row.revision) ∨
        (row.supersededAt = none ∧ existing.any (·.supersededAt = none)) then
      .error (.resolutionRevisionConflict ((existing.head?.map (·.revision)).getD 0))
    else .ok ((), { db with resolutions := db.resolutions ++ [row] })

/-! ## Statements that succeed -/

variable {w w' : Work CaseDb}

variable {α : Type}

variable {f : CaseDb → Except Thrown (α × CaseDb)}

theorem attempt_ok {a : α} (h : CaseM.attempt f w = (.ok a, w')) :
    f w.db = .ok (a, w'.db) := Sql.step_ok h

theorem select_ok {f : CaseDb → α} {a : α} (h : CaseM.select f w = (.ok a, w')) :
    a = f w.db ∧ w'.db = w.db := by
  obtain ⟨hvalue, hdb⟩ := Prod.mk.inj (Except.ok.inj (attempt_ok h))
  exact ⟨hvalue.symm, hdb.symm⟩

variable {u : Unit}

theorem write_ok {f : CaseDb → CaseDb} (h : CaseM.write f w = (.ok u, w')) : w'.db = f w.db := by
  exact (Prod.mk.inj (Except.ok.inj (attempt_ok h))).2.symm

theorem updateCase_ok {id : JsString} {f : CaseRow → CaseRow}
    (h : updateCase id f w = (.ok u, w')) :
    ∃ row, w.db.cases id = some row ∧ w'.db = w.db.setCase id (f row) := by
  have hdb := attempt_ok h
  split at hdb
  · cases hdb
  · rename_i row hrow
    exact ⟨row, hrow, (Prod.mk.inj (Except.ok.inj hdb)).2.symm⟩

theorem appendTimeline_ok {caseId : JsString} {event : TimelineInsert} {now : UtcTime}
    (h : appendTimeline caseId event now w = (.ok u, w')) :
    (w.db.timeline caseId).length < ARRAY_MAX_LENGTH ∧ w'.db = w.db.appended caseId event now := by
  have hdb := attempt_ok h
  split at hdb
  · rename_i hlength
    exact ⟨hlength, (Prod.mk.inj (Except.ok.inj hdb)).2.symm⟩
  · cases hdb

end ContextDesk
