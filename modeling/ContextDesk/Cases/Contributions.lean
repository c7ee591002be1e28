import ContextDesk.Cases.Permits

/-!
# Contributions

The four calls that append to a chain of revisions, each in two parts: `prepare` reads the store and
decides what to write, and `commitContribution` writes it in one transaction, with the uniqueness of
a revision and of an idempotency key. Other calls may commit between the two. A call that meets a
unique violation is rolled back and reads the store again (`afterViolation`). Alone, the two parts
are the calls of the service.
-/

namespace ContextDesk

open Lib

def CONTRIBUTION_KINDS : List ContributionKind :=
  [.message, .note, .hypothesis, .action, .upload, .external_run, .handoff]

/-- `isContributionKind`, with the kind. -/
def contributionKindOf (value : JsString) : Option ContributionKind :=
  CONTRIBUTION_KINDS.find? fun kind => JsString.ofString kind.text = value

structure ContributionWriteInput where
  kind : JsString
  body : JsString
  privacyClass : Option PrivacyClass := none
  clientTime : Option JsString := none
  hypothesisStatus : Option HypothesisStatus := none
  hypothesisLinks : Option JsValue := none
  sourceId : Option JsString := none
  idempotencyKey : Option JsString := none

structure ContributionDigestInput where
  kind : JsString
  body : JsString
  privacyClass : PrivacyClass
  hypothesisStatus : Option HypothesisStatus
  hypothesisLinks : List HypothesisLink
  sourceId : JsString

structure ContributionWriteIntent where
  caseId : JsString
  actorId : JsString
  idempotencyKey : JsString
  requestDigest : JsString
  contributionId : JsString
  createdAt : JsString
  deriving DecidableEq

def ContributionWriteIntent.key (intent : ContributionWriteIntent) :
    JsString × JsString × JsString :=
  (intent.caseId, intent.actorId, intent.idempotencyKey)

structure ContributionEnv extends CaseEnv where
  contributionWriteDigest : ContributionDigestInput → JsString
  /-- A source of the catalog, or the human source of the actor. -/
  resolveSourceId : Actor → Option JsString → Outcome JsString

/-- The case store with the intents of contributions. -/
structure ContributionDb where
  db : CaseDb
  contributionIntents : JsString × JsString × JsString → Option ContributionWriteIntent :=
    fun _ => none

structure ContributionWrite where
  caseId : JsString
  rev : RevisionRow
  intent : Option ContributionWriteIntent := none
  event : TimelineInsert
  now : UtcTime
  record : AuditRecord

inductive Prepared where
  | returns (row : RevisionRow)
  /-- The key was used for another request. -/
  | conflicts
  | writes (write : ContributionWrite)

/-- What a call throws: a conflict, with the current revision if it is known, or anything else. -/
inductive ContributionError where
  | conflict (currentRevision : Option Nat)
  | thrown (e : Thrown)

def ContributionError.of : Thrown → ContributionError
  | .contributionConflict currentRevision => .conflict (some currentRevision)
  | e => .thrown e

/-! ## The calls up to their writes -/

section

variable (env : CaseEnv)

def revisionOf (stamp : Stamp) (actor : Actor) (body : JsString) (latest : RevisionRow) :
    RevisionRow :=
  { latest with
    revision := latest.revision + 1
    predecessorRevision := some latest.revision
    body
    contentHash := env.hashContributionContent latest.kind body
    authorId := actor.id
    authorUsername := actor.username
    createdAt := (stamp.now 0).toISOString
    tombstone := false }

def prepareRevision (stamp : Stamp) (caseId contributionId : JsString) (actor : Actor)
    (body origin : JsString) (expectedRevision : Rat) (clientTime : Option JsString) :
    CaseM Prepared := do
  let canonicalTime ← orError (env.canonicalClientTime clientTime)
  let latest ← requireLatest caseId contributionId
  Sql.demand (latest.tombstone = false) (.error "contribution not found")
  Sql.demand ((latest.revision : Rat) = expectedRevision) (.contributionConflict latest.revision)
  let next := revisionOf env stamp actor body latest
  pure (.writes
    { caseId
      rev := next
      event :=
        { kind := "contribution_revised", actor, targetId := some contributionId
          clientTime := canonicalTime
          payload := .object [("kind", jsText next.kind.text), ("revision", .number next.revision),
            ("predecessor", .number latest.revision),
            ("contentHash", .string next.contentHash)] }
      now := stamp.now 1
      record := ⟨actor.id, "contribution_revise",
        contributionId ++ JsString.ofString (":" ++ toString next.revision), origin, .success⟩ })

def prepareTombstone (stamp : Stamp) (caseId contributionId : JsString) (actor : Actor)
    (origin : JsString) : CaseM Prepared := do
  let row ← requireCase caseId
  Sql.demand (row.legalHold = false) .legalHold
  let latest ← requireLatest caseId contributionId
  if latest.tombstone then pure (.returns latest)
  else
    let next := tombstoneOf env.hashContributionContent
      ⟨contributionId, actor, (stamp.now 0).toISOString⟩ latest
    pure (.writes
      { caseId
        rev := next
        event :=
          { kind := "contribution_tombstoned", actor, targetId := some contributionId
            clientTime := none
            payload := .object [("kind", jsText latest.kind.text),
              ("revision", .number next.revision), ("tombstone", .bool true)] }
        now := stamp.now 1
        record := ⟨actor.id, "contribution_tombstone", contributionId, origin, .success⟩ })

def hypothesisOf (stamp : Stamp) (actor : Actor) (status : HypothesisStatus)
    (links : List HypothesisLink) (latest : RevisionRow) : RevisionRow :=
  { latest with
    revision := latest.revision + 1
    predecessorRevision := some latest.revision
    contentHash := env.hashContributionContent latest.kind latest.body
    authorId := actor.id
    authorUsername := actor.username
    createdAt := (stamp.now 0).toISOString
    hypothesisStatus := some status
    hypothesisLinks := links }

def prepareHypothesis (stamp : Stamp) (caseId contributionId : JsString) (actor : Actor)
    (status : HypothesisStatus) (linksInput : JsValue) (origin : JsString)
    (canonicalTime : Option JsString) : CaseM Prepared := do
  let latest ← requireLatest caseId contributionId
  Sql.demand (latest.kind = .hypothesis ∧ latest.tombstone = false) (.error "hypothesis not found")
  let links ← validatedHypothesisLinks env caseId linksInput "$.links"
  Sql.demand (status ≠ .supported ∨ links ≠ [])
    (.error "supported hypothesis must link to at least one artifact or contribution")
  if latest.hypothesisStatus = some status ∧ latest.hypothesisLinks = links then
    pure (.returns latest)
  else
    let next := hypothesisOf env stamp actor status links latest
    pure (.writes
      { caseId
        rev := next
        event :=
          { kind := "hypothesis_status", actor, targetId := some contributionId
            clientTime := canonicalTime
            payload := .object [("kind", jsText next.kind.text),
            ("revision", .number next.revision), ("status", jsText status.text),
            ("links", .array (links.map (·.toJs)))] }
        now := stamp.now 1
        record := ⟨actor.id, "hypothesis_status",
          contributionId ++ JsString.ofString (":" ++ status.text), origin, .success⟩ })

end

section

variable (env : ContributionEnv)

def contributionStatus (input : ContributionWriteInput) : Option HypothesisStatus :=
  if input.kind = JsString.ofString ContributionKind.hypothesis.text then
    some (input.hypothesisStatus.getD .proposed)
  else none

def digestOf (input : ContributionWriteInput) (links : List HypothesisLink) (sourceId : JsString) :
    JsString :=
  env.contributionWriteDigest
    { kind := input.kind
      body := input.body
      privacyClass := input.privacyClass.getD .owner_only
      hypothesisStatus := contributionStatus input
      hypothesisLinks := links
      sourceId }

def validatedContributionLinks (caseId : JsString) (kind : ContributionKind) :
    Option JsValue → CaseM (List HypothesisLink)
  | none => pure []
  | some raw => do
    Sql.demand (kind = .hypothesis) (.contract (ContractViolation "$.hypothesisLinks"
      "links require a hypothesis contribution"))
    validatedHypothesisLinks env.toCaseEnv caseId raw "$.hypothesisLinks"

structure CheckedContribution where
  clientTime : Option JsString
  kind : ContributionKind
  links : List HypothesisLink
  sourceId : JsString

/-- The checks of a new contribution, before its key is looked up. -/
def checkContribution (caseId : JsString) (actor : Actor) (input : ContributionWriteInput) :
    CaseM CheckedContribution := do
  let clientTime ← orError (env.canonicalClientTime input.clientTime)
  let _ ← requireCase caseId
  let kind ← Sql.orFail (contributionKindOf input.kind) (.error "unknown contribution kind")
  let links ← validatedContributionLinks env caseId kind input.hypothesisLinks
  Sql.demand (kind = .hypothesis → input.hypothesisStatus.getD .proposed = .supported → links ≠ [])
    (.error "supported hypothesis must link to at least one artifact or contribution")
  let sourceId ← orError (env.resolveSourceId actor input.sourceId)
  Sql.demand (∀ key ∈ input.idempotencyKey, isIdempotencyKey key = true)
    (.error "invalid contribution idempotency key")
  pure ⟨clientTime, kind, links, sourceId⟩

def createdOf (caseId : JsString) (chain : List RevisionRow) : Except Thrown RevisionRow :=
  match chain.find? (·.revision = 1) <|> chain.head? with
  | some created =>
    if created.caseId = caseId then .ok created else .error (.error "contribution not found")
  | none => .error (.error "contribution not found")

def loadContribution (caseId contributionId : JsString) : CaseM RevisionRow := do
  let chain ← listRevisions contributionId
  Sql.lift (createdOf caseId chain)

def contributionWrite (stamp : Stamp) (caseId : JsString) (actor : Actor)
    (input : ContributionWriteInput) (origin : JsString) (checked : CheckedContribution) :
    ContributionWrite :=
  let contentHash := env.hashContributionContent checked.kind input.body
  let privacyClass := input.privacyClass.getD .owner_only
  { caseId
    rev :=
      { contributionId := stamp.uuid, caseId, kind := checked.kind, revision := 1
        predecessorRevision := none, body := input.body, contentHash, privacyClass
        tombstone := false, authorId := actor.id, authorUsername := actor.username
        createdAt := (stamp.now 0).toISOString, hypothesisStatus := contributionStatus input
        hypothesisLinks := checked.links, sourceId := checked.sourceId }
    intent := input.idempotencyKey.map fun key =>
      ⟨caseId, actor.id, key, digestOf env input checked.links checked.sourceId, stamp.uuid,
        (stamp.now 0).toISOString⟩
    event :=
      { kind := "contribution_created", actor, targetId := some stamp.uuid
        clientTime := checked.clientTime
        payload := .object [("kind", .string input.kind), ("contentHash", .string contentHash),
          ("privacyClass", jsText privacyClass.text), ("sourceId", .string checked.sourceId)] }
    now := stamp.now 1
    record := ⟨actor.id, "contribution_create", stamp.uuid, origin, .success⟩ }

/-- `persistContribution` up to its writes. -/
def prepareContribution (stamp : Stamp) (s : ContributionDb) (caseId : JsString) (actor : Actor)
    (input : ContributionWriteInput) (origin : JsString) : CaseM Prepared := do
  let checked ← checkContribution env caseId actor input
  match input.idempotencyKey.bind fun key => s.contributionIntents (caseId, actor.id, key) with
  | some existing =>
    if existing.requestDigest ≠ digestOf env input checked.links checked.sourceId then
      pure .conflicts
    else do
      let row ← loadContribution caseId existing.contributionId
      pure (.returns row)
  | none => pure (.writes (contributionWrite env stamp caseId actor input origin checked))

inductive ContributionCall where
  | addContribution (caseId : JsString) (actor : Actor) (input : ContributionWriteInput)
      (origin : JsString)
  | reviseContribution (caseId contributionId : JsString) (actor : Actor) (body origin : JsString)
      (expectedRevision : Rat) (clientTime : Option JsString)
  | tombstoneContribution (caseId contributionId : JsString) (actor : Actor) (origin : JsString)
  | setHypothesisStatus (caseId contributionId : JsString) (actor : Actor)
      (status : HypothesisStatus) (linksInput : JsValue) (origin : JsString)
      (clientTime : Option JsString)

def prepareCall (stamp : Stamp) (s : ContributionDb) : ContributionCall → CaseM Prepared
  | .addContribution caseId actor input origin =>
    prepareContribution env stamp s caseId actor input origin
  | .reviseContribution caseId contributionId actor body origin expectedRevision clientTime => do
    Sql.demand (expectedRevision.den = 1 ∧ 1 ≤ expectedRevision)
      (.error "expectedRevision is required")
    prepareRevision env.toCaseEnv stamp caseId contributionId actor body origin expectedRevision
      clientTime
  | .tombstoneContribution caseId contributionId actor origin =>
    prepareTombstone env.toCaseEnv stamp caseId contributionId actor origin
  | .setHypothesisStatus caseId contributionId actor status linksInput origin clientTime => do
    let canonicalTime ← orError (env.canonicalClientTime clientTime)
    prepareHypothesis env.toCaseEnv stamp caseId contributionId actor status linksInput origin
      canonicalTime

/-- What a call decides from the committed store. -/
def prepare (stamp : Stamp) (s : ContributionDb) (call : ContributionCall) :
    Except Thrown Prepared :=
  (prepareCall env stamp s call ⟨s.db, []⟩).1

/-! ## The writes -/

/-- The insertions of a write in one transaction. -/
def commitContribution (s : ContributionDb) (write : ContributionWrite) :
    Except Thrown ContributionDb :=
  if (s.db.revisions write.rev.contributionId).any (·.revision = write.rev.revision) then
    .error .uniqueViolation
  else if ∃ intent ∈ write.intent, (s.contributionIntents intent.key).isSome then
    .error .uniqueViolation
  else if (s.db.timeline write.caseId).length < ARRAY_MAX_LENGTH then
    .ok
      { db := ((s.db.revised write.rev).appended write.caseId write.event write.now).record
          write.record
        contributionIntents := match write.intent with
          | none => s.contributionIntents
          | some intent => Function.update s.contributionIntents intent.key (some intent) }
  else .error (.error "Invalid array length")

/-- The digest that a rolled back creation computes again. -/
def requestDigest (actor : Actor) (input : ContributionWriteInput) : Outcome JsString := do
  let sourceId ← env.resolveSourceId actor input.sourceId
  let links ← match input.hypothesisLinks with
    | none => pure []
    | some raw => env.parseHypothesisLinks raw "$.hypothesisLinks"
  pure (digestOf env input links sourceId)

def replayContributionWrite (s : ContributionDb) (caseId actorId key digest : JsString) :
    Except ContributionError RevisionRow :=
  match s.contributionIntents (caseId, actorId, key) with
  | none => .error (.conflict none)
  | some existing =>
    if existing.requestDigest ≠ digest then .error (.conflict none)
    else (createdOf caseId (s.db.revisions existing.contributionId)).mapError .thrown

/-- A revision that was there already is a conflict with the latest one. -/
def revisionConflict (s : ContributionDb) (caseId contributionId : JsString) :
    Except ContributionError RevisionRow :=
  match latestOf caseId (s.db.revisions contributionId) with
  | .ok latest => .error (.conflict (some latest.revision))
  | .error e => .error (.thrown e)

/-- What a call answers after a unique violation, from the committed store. -/
def afterViolation (s : ContributionDb) : ContributionCall → Except ContributionError RevisionRow
  | .addContribution caseId actor input _ =>
    match input.idempotencyKey with
    | none => .error (.thrown .uniqueViolation)
    | some key => do
      let digest ← (requestDigest env actor input).mapError fun e => .thrown (.error e)
      replayContributionWrite s caseId actor.id key digest
  | .reviseContribution caseId contributionId _ _ _ _ _ => revisionConflict s caseId contributionId
  | .tombstoneContribution caseId contributionId _ _ => revisionConflict s caseId contributionId
  | .setHypothesisStatus caseId contributionId _ _ _ _ _ =>
    revisionConflict s caseId contributionId

end

/-! ## The calls alone -/

def writeContribution (write : ContributionWrite) : CaseM RevisionRow := do
  insertRevision write.rev
  appendTimeline write.caseId write.event write.now
  auditAppend write.record
  pure write.rev

def Prepared.finish : Prepared → CaseM RevisionRow
  | .returns row => pure row
  | .conflicts => Sql.fail (.error "contribution conflict")
  | .writes write => writeContribution write

variable {env : CaseEnv}

theorem reviseContribution_eq (stamp : Stamp) (caseId contributionId : JsString) (actor : Actor)
    (body origin : JsString) (expectedRevision : Rat) (clientTime : Option JsString) :
    reviseContribution env stamp caseId contributionId actor body origin expectedRevision
        clientTime = (do
      Sql.demand (expectedRevision.den = 1 ∧ 1 ≤ expectedRevision)
        (.error "expectedRevision is required")
      Sql.handle (Sql.atomic (prepareRevision env stamp caseId contributionId actor body origin
        expectedRevision clientTime >>= Prepared.finish)) (onUniqueViolation caseId contributionId))
    := by
  simp only [prepareRevision, Sql.bind_assoc]
  rfl

theorem tombstoneContribution_eq (stamp : Stamp) (caseId contributionId : JsString)
    (actor : Actor) (origin : JsString) :
    tombstoneContribution env stamp caseId contributionId actor origin =
      Sql.handle (Sql.atomic (prepareTombstone env stamp caseId contributionId actor origin >>=
        Prepared.finish)) (onUniqueViolation caseId contributionId) := by
  simp only [prepareTombstone, Sql.bind_assoc, Sql.ite_bind]
  rfl

theorem setHypothesisStatus_eq (stamp : Stamp) (caseId contributionId : JsString) (actor : Actor)
    (status : HypothesisStatus) (linksInput : JsValue) (origin : JsString)
    (clientTime : Option JsString) :
    setHypothesisStatus env stamp caseId contributionId actor status linksInput origin clientTime =
      (do
        let canonicalTime ← orError (env.canonicalClientTime clientTime)
        Sql.handle (Sql.atomic (prepareHypothesis env stamp caseId contributionId actor status
          linksInput origin canonicalTime >>= Prepared.finish))
          (onUniqueViolation caseId contributionId)) := by
  simp only [prepareHypothesis, Sql.bind_assoc, Sql.ite_bind]
  rfl

end ContextDesk
