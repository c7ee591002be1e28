import ContextDesk.Lib.NodeBuffer
import ContextDesk.Portable.Canonical
import ContextDesk.Cases.Situation

/-!
# Portable bundles

The rows of a bundle with the ids, versions and references in them, the ids of each namespace, and
what an identifier may be. The texts and times of the rows, which no check here reads, are left out.
-/

namespace ContextDesk

open Lib

inductive ContentInclusion where
  | present
  | omitted
  | private_
  | redacted
  deriving DecidableEq

inductive SnapshotLineageClass where
  | root
  | derived
  | unknown
  deriving DecidableEq

/-! ## Rows -/

/-- A contribution or a decision, in one of its revisions. -/
structure PortableRevision where
  id : JsString
  revision : Nat
  predecessorRevision : Option Nat
  deriving DecidableEq

structure PortableEvidence where
  id : JsString
  privacyClass : PrivacyClass
  digest : JsString
  inclusion : ContentInclusion
  byteLength : Nat

structure PortableContent where
  digest : JsString
  byteLength : Nat
  inclusion : ContentInclusion
  payloadBase64 : Option JsString

structure PortableSnapshot where
  id : JsString
  parentSnapshotId : Option JsString
  lineageClass : SnapshotLineageClass

structure PortableTriageJob where
  id : JsString
  /-- The `candidateId` of each candidate. -/
  candidates : List JsString

structure PortableExperiment where
  id : JsString
  /-- The `traceId` of each trace, where traces are exported. -/
  traces : Option (List JsString)

structure PortableGold where
  goldId : JsString
  version : Nat
  predecessorGoldId : Option JsString
  experimentId : JsString

structure PortableTimelineRef where
  seq : Nat
  kind : JsString
  targetId : Option JsString
  targetNamespace : Option JsString

structure PortableAttachment where
  id : JsString
  evidenceId : JsString
  discussionId : Option JsString
  digest : JsString
  inclusion : ContentInclusion

structure PortableInvestigation where
  sourceInstallationId : JsString
  /-- The id of the one investigation. -/
  investigation : JsString
  actors : List JsString
  contributions : List PortableRevision
  evidence : List PortableEvidence
  intakeBatches : List JsString
  contentObjects : List PortableContent
  sources : List JsString
  importedAiRuns : List JsString
  snapshots : List PortableSnapshot
  triageJobs : List PortableTriageJob
  experiments : List PortableExperiment
  helpfulnessObservations : List JsString
  decisions : List PortableRevision
  gold : List PortableGold
  alignments : List JsString
  discussions : List JsString
  timeline : List PortableTimelineRef
  auditRefs : List JsString
  attachments : List PortableAttachment

/-! ## Namespaces -/

def PORTABLE_OBJECT_KINDS : List PortableObjectKind :=
  [.investigation, .actor, .contribution, .evidence, .intake_batch, .content, .source,
    .imported_ai_run, .snapshot, .triage_job, .experiment, .helpfulness, .decision, .gold,
    .alignment, .discussion, .timeline, .audit, .attachment]

theorem mem_PORTABLE_OBJECT_KINDS (kind : PortableObjectKind) : kind ∈ PORTABLE_OBJECT_KINDS := by
  cases kind <;> decide

/-- `String(n)`. -/
def numeralOf (n : Nat) : JsString := (JsonText.decimal n).text

/-- The ids of a namespace, a repeated one once. -/
def portableNamespaceIds (bundle : PortableInvestigation) (kind : PortableObjectKind) :
    List JsString :=
  List.dedup <| match kind with
  | .investigation => [bundle.investigation]
  | .actor => bundle.actors
  | .contribution => bundle.contributions.map (·.id)
  | .evidence => bundle.evidence.map (·.id)
  | .intake_batch => bundle.intakeBatches
  | .content => bundle.contentObjects.map (·.digest)
  | .source => bundle.sources
  | .imported_ai_run => bundle.importedAiRuns
  | .snapshot => bundle.snapshots.map (·.id)
  | .triage_job => bundle.triageJobs.map (·.id)
  | .experiment => bundle.experiments.map (·.id)
  | .helpfulness => bundle.helpfulnessObservations
  | .decision => bundle.decisions.map (·.id)
  | .gold => bundle.gold.map (·.goldId)
  | .alignment => bundle.alignments
  | .discussion => bundle.discussions
  | .timeline => bundle.timeline.map fun row => numeralOf row.seq
  | .audit => bundle.auditRefs
  | .attachment => bundle.attachments.map (·.id)

/-! ## Identifiers -/

def DISALLOWED_IDENTIFIER_CODE_POINT_RANGES : List (Nat × Nat) :=
  [(0x0000, 0x001f), (0x007f, 0x009f), (0x00ad, 0x00ad), (0x034f, 0x034f), (0x061c, 0x061c),
    (0x115f, 0x1160), (0x17b4, 0x17b5), (0x180b, 0x180f), (0x200b, 0x200f), (0x202a, 0x202e),
    (0x2060, 0x206f), (0x3164, 0x3164), (0xfe00, 0xfe0f), (0xfeff, 0xfeff), (0xffa0, 0xffa0),
    (0xe0100, 0xe01ef)]

/-- A lone surrogate is in no range, and neither is what stands for it here. -/
def hasDisallowedIdentifierCodePoint (value : JsString) : Bool :=
  (NodeBuffer.toChars value).any fun c =>
    DISALLOWED_IDENTIFIER_CODE_POINT_RANGES.any fun range =>
      range.1 ≤ c.toNat && c.toNat ≤ range.2

def requireSafeIdentifier (path : String) (value : JsString) : Outcome Unit := do
  ensure (JsString.trim value ≠ []) (ContractViolation path "identifier must not be empty")
  ensure (hasDisallowedIdentifierCodePoint value = false)
    (ContractViolation path "control or zero-width character in identifier")

def SafeIdentifier (value : JsString) : Prop :=
  JsString.trim value ≠ [] ∧ hasDisallowedIdentifierCodePoint value = false

theorem requireSafeIdentifier_ok {path : String} {value : JsString} {u : Unit} :
    requireSafeIdentifier path value = .ok u ↔ SafeIdentifier value := by
  simp [requireSafeIdentifier, SafeIdentifier, bind_ok]

theorem SafeIdentifier.ne_nil {value : JsString} (h : SafeIdentifier value) : value ≠ [] := by
  rintro rfl
  exact h.1 (by decide)

end ContextDesk
