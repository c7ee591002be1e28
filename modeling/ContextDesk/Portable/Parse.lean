import ContextDesk.Portable.Lineage
import ContextDesk.Portable.Uuid

/-!
# What the parser of a bundle checks about references

The passes of `parsePortableInvestigation` over ids, digests, versions and targets, in their order.
The passes over texts, times, actors and hashes are not here, so what is accepted here is more than
what the parser accepts.
-/

namespace ContextDesk

open Lib

/-! ## Content -/

/-- `requireSha256` of the portable bundles. -/
def requirePortableSha256 (path : String) (value : JsString) : Outcome Unit :=
  ensure (isSha256Hex value = true)
    (ContractViolation path "expected a lowercase SHA-256 hex digest")

/-- The row of a digest in the map of the rows, where a later row replaces an earlier one. -/
def contentOf (contents : List PortableContent) (digest : JsString) : Option PortableContent :=
  contents.reverse.find? fun row => row.digest = digest

section

variable (sha256 : List UInt8 → JsString) (requireInlinePresentPayload : Bool)

/-- The payload is read as Node reads base64, which is the way it reads base64url. -/
def checkContent (i : Nat) (row : PortableContent) : Outcome Unit := do
  let path := itemPath "$.contentObjects" i
  requirePortableSha256 (path ++ ".digest") row.digest
  if row.inclusion = .present then
    match row.payloadBase64 with
    | none =>
      ensure (requireInlinePresentPayload = false)
        (ContractViolation (path ++ ".payloadBase64") "missing required content")
    | some payload => do
      let bytes := NodeBuffer.fromBase64url payload
      ensure (bytes.length = row.byteLength)
        (ContractViolation (path ++ ".byteLength") "payload length mismatch")
      ensure (sha256 bytes = row.digest)
        (ContractViolation (path ++ ".digest") "hash/fingerprint mismatch")
  else
    ensure (row.payloadBase64 = none) (ContractViolation (path ++ ".payloadBase64")
      "omitted, private, or redacted content must not include payload")

def Withheld (content : PortableContent) : Prop :=
  content.inclusion ≠ .present ∧ content.payloadBase64 = none

instance (content : PortableContent) : Decidable (Withheld content) :=
  inferInstanceAs (Decidable (_ ∧ _))

def checkEvidence (contents : List PortableContent) (i : Nat) (row : PortableEvidence) :
    Outcome Unit := do
  let path := itemPath "$.evidence" i
  requirePortableSha256 (path ++ ".digest") row.digest
  let content ← require (contentOf contents row.digest)
    (ContractViolation (path ++ ".digest") "dangling content digest")
  ensure (row.inclusion = .present → content.inclusion = .present)
    (ContractViolation (path ++ ".inclusion") "missing required content")
  ensure (¬ (row.privacyClass = .share_safe ∧ row.inclusion = .private_))
    (ContractViolation (path ++ ".inclusion")
      "illegal privacy claim: share-safe evidence cannot be private")
  ensure (row.byteLength = content.byteLength)
    (ContractViolation (path ++ ".byteLength") "content byteLength mismatch")
  ensure (row.inclusion ≠ .present → Withheld content)
    (ContractViolation (path ++ ".inclusion") ("dishonest withholding metadata: withheld " ++
      "evidence must not reference present payload bytes"))

def validateContent (bundle : PortableInvestigation) : Outcome Unit := do
  uniqueIds "$.contentObjects.digest" (bundle.contentObjects.map (·.digest))
  ensureAll (fun row => checkContent sha256 requireInlinePresentPayload row.2 row.1)
    bundle.contentObjects.zipIdx
  ensureAll (fun row => checkEvidence bundle.contentObjects row.2 row.1) bundle.evidence.zipIdx

end

def checkAttachment (bundle : PortableInvestigation) (i : Nat) (row : PortableAttachment) :
    Outcome Unit := do
  let path := itemPath "$.attachments" i
  ensure (row.evidenceId ∈ bundle.evidence.map (·.id))
    (ContractViolation (path ++ ".evidenceId") "dangling evidence reference")
  ensure (∀ id ∈ row.discussionId, id ∈ bundle.discussions)
    (ContractViolation (path ++ ".discussionId") "dangling discussion reference")
  let content ← require (contentOf bundle.contentObjects row.digest)
    (ContractViolation (path ++ ".digest") "dangling content digest")
  ensure (row.inclusion ≠ .present → Withheld content)
    (ContractViolation (path ++ ".inclusion") ("dishonest withholding metadata: withheld " ++
      "attachment must not reference present payload bytes"))

/-! ## Targets -/

/-- The two ids of a composite target, divided at the first colon. -/
def parseCompositeTarget (targetId : JsString) : Option (JsString × JsString) :=
  let first := targetId.takeWhile (· ≠ 58)
  match targetId.dropWhile (· ≠ 58) with
  | _ :: second => if first ≠ [] ∧ second ≠ [] then some (first, second) else none
  | [] => none

def parsePortableTriageAttemptTarget (targetId : JsString) : Option (JsString × JsString) :=
  parseCompositeTarget targetId

def parsePortableExperimentTraceTarget (targetId : JsString) : Option (JsString × JsString) :=
  parseCompositeTarget targetId

/-- Any trace of an experiment of the bundle will do. -/
def portableTimelineTargetExists (bundle : PortableInvestigation) (kind : PortableObjectKind)
    (targetId : JsString) : Bool :=
  if targetId ∈ portableNamespaceIds bundle kind then true
  else if kind = .experiment then
    match parsePortableExperimentTraceTarget targetId with
    | some (experimentId, _) => experimentId ∈ portableNamespaceIds bundle .experiment
    | none => false
  else if kind ≠ .triage_job then false
  else
    match parsePortableTriageAttemptTarget targetId with
    | some (jobId, candidateId) =>
      match bundle.triageJobs.find? fun row => row.id = jobId with
      | some job => job.candidates.any (· = candidateId)
      | none => false
    | none => false

def checkTimelineTarget (bundle : PortableInvestigation) (i : Nat) (row : PortableTimelineRef) :
    Outcome Unit := do
  let path := itemPath "$.timeline" i
  ensure (row.targetId = none ↔ row.targetNamespace = none) (ContractViolation path
    "timeline targetId and targetNamespace must both be null or both be set")
  match row.targetId, row.targetNamespace with
  | some targetId, some targetNamespace => do
    requireSafeIdentifier (path ++ ".targetNamespace") targetNamespace
    let kind ← require (objectKindOf targetNamespace)
      (ContractViolation (path ++ ".targetNamespace") "unknown timeline target namespace")
    ensure (portableTimelineTargetExists bundle kind targetId = true)
      (ContractViolation (path ++ ".targetId") "dangling timeline target")
  | _, _ => .ok ()

def traceTarget (experimentId traceId : JsString) : JsString := experimentId ++ 58 :: traceId

/-- The targets of the imported traces of an experiment. -/
def importedTraceTargets (bundle : PortableInvestigation) (experimentId : JsString) :
    List JsString :=
  ((bundle.timeline.filter fun row =>
      row.kind = JsString.ofString "experiment_trace_imported").filterMap (·.targetId)).filter
    fun targetId =>
      (parsePortableExperimentTraceTarget targetId).any fun parsed => parsed.1 = experimentId

def checkTraces (bundle : PortableInvestigation) (i : Nat) (row : PortableExperiment) :
    Outcome Unit :=
  match row.traces with
  | none => .ok ()
  | some traces => do
    uniqueIds (itemPath "$.experiments" i ++ ".traces.traceId") traces
    let sorted := fun l : List JsString => l.insertionSort fun s t => codeUnitsLe s t = true
    ensure (sorted (traces.map (traceTarget row.id)) = sorted (importedTraceTargets bundle row.id))
      (ContractViolation (itemPath "$.experiments" i ++ ".traces")
        "experiment traces must match experiment_trace_imported timeline targets")

/-! ## The bundle -/

def rowIdentifiers {α : Type} (path : String) (rows : List α) (ids : α → List (String × JsString)) :
    List (String × JsString) :=
  rows.zipIdx.flatMap fun row => (ids row.1).map fun id => (itemPath path row.2 ++ id.1, id.2)

/-- The texts under keys that end in `id`, with their paths. -/
def bundleIdentifiers (bundle : PortableInvestigation) : List (String × JsString) :=
  let plain := fun path rows => rowIdentifiers path rows fun id : JsString => [(".id", id)]
  let nullable := fun (name : String) (id : Option JsString) => id.toList.map fun id => (name, id)
  [("$.sourceInstallationId", bundle.sourceInstallationId),
    ("$.investigation.id", bundle.investigation)] ++
  rowIdentifiers "$.actors" bundle.actors (fun id => [(".sourceActorId", id)]) ++
  rowIdentifiers "$.contributions" bundle.contributions (fun row => [(".id", row.id)]) ++
  rowIdentifiers "$.evidence" bundle.evidence (fun row => [(".id", row.id)]) ++
  plain "$.intakeBatches" bundle.intakeBatches ++
  plain "$.sources" bundle.sources ++
  plain "$.importedAiRuns" bundle.importedAiRuns ++
  rowIdentifiers "$.snapshots" bundle.snapshots (fun row =>
    (".id", row.id) :: nullable ".parentSnapshotId" row.parentSnapshotId) ++
  rowIdentifiers "$.triageJobs" bundle.triageJobs (fun row =>
    (".id", row.id) :: rowIdentifiers ".candidates" row.candidates fun id =>
      [(".candidateId", id)]) ++
  rowIdentifiers "$.experiments" bundle.experiments (fun row =>
    (".id", row.id) :: rowIdentifiers ".traces" (row.traces.getD []) fun id => [(".traceId", id)]) ++
  plain "$.helpfulnessObservations" bundle.helpfulnessObservations ++
  rowIdentifiers "$.decisions" bundle.decisions (fun row => [(".id", row.id)]) ++
  rowIdentifiers "$.gold" bundle.gold (fun row => (".goldId", row.goldId) ::
    nullable ".predecessorGoldId" row.predecessorGoldId ++ [(".experimentId", row.experimentId)]) ++
  plain "$.alignments" bundle.alignments ++
  plain "$.discussions" bundle.discussions ++
  rowIdentifiers "$.timeline" bundle.timeline (fun row => nullable ".targetId" row.targetId) ++
  plain "$.auditRefs" bundle.auditRefs ++
  rowIdentifiers "$.attachments" bundle.attachments (fun row =>
    (".id", row.id) :: nullable ".discussionId" row.discussionId ++
      [(".evidenceId", row.evidenceId)])

def assertSafeIdentifiers (bundle : PortableInvestigation) : Outcome Unit :=
  ensureAll (fun id => requireSafeIdentifier id.1 id.2) (bundleIdentifiers bundle)

def revisionKey (row : PortableRevision) : JsString := row.id ++ 58 :: numeralOf row.revision

variable (sha256 : List UInt8 → JsString) (requireInlinePresentPayload : Bool)

def parsePortableInvestigation (bundle : PortableInvestigation) :
    Outcome PortableInvestigation := do
  assertSafeIdentifiers bundle
  uniqueIds "$.actors.sourceActorId" bundle.actors
  uniqueIds "$.sources.id" bundle.sources
  uniqueIds "$.contributions" (bundle.contributions.map revisionKey)
  assertVersionChain "$.contributions" bundle.contributions
  uniqueIds "$.evidence.id" (bundle.evidence.map (·.id))
  validateContent sha256 requireInlinePresentPayload bundle
  uniqueIds "$.intakeBatches.id" bundle.intakeBatches
  uniqueIds "$.importedAiRuns.id" bundle.importedAiRuns
  uniqueIds "$.snapshots.id" (bundle.snapshots.map (·.id))
  detectSnapshotCycles bundle.snapshots
  uniqueIds "$.triageJobs.id" (bundle.triageJobs.map (·.id))
  ensureAll (fun row => uniqueIds (itemPath "$.triageJobs" row.2 ++ ".candidates.candidateId")
    row.1.candidates) bundle.triageJobs.zipIdx
  uniqueIds "$.experiments.id" (bundle.experiments.map (·.id))
  ensureAll (fun row => checkTraces bundle row.2 row.1) bundle.experiments.zipIdx
  uniqueIds "$.helpfulnessObservations.id" bundle.helpfulnessObservations
  uniqueIds "$.decisions" (bundle.decisions.map revisionKey)
  assertVersionChain "$.decisions" bundle.decisions
  validateGoldLineage bundle.gold
  ensureAll (fun row => ensure (row.1.experimentId ∈ bundle.experiments.map (·.id))
    (ContractViolation (itemPath "$.gold" row.2 ++ ".experimentId")
      "dangling experiment reference")) bundle.gold.zipIdx
  uniqueIds "$.alignments.id" bundle.alignments
  uniqueIds "$.discussions.id" bundle.discussions
  uniqueIds "$.timeline.seq" (bundle.timeline.map fun row => numeralOf row.seq)
  ensureAll (fun row => checkTimelineTarget bundle row.2 row.1) bundle.timeline.zipIdx
  uniqueIds "$.auditRefs.id" bundle.auditRefs
  uniqueIds "$.attachments.id" (bundle.attachments.map (·.id))
  ensureAll (fun row => checkAttachment bundle row.2 row.1) bundle.attachments.zipIdx
  pure bundle

end ContextDesk
