import ContextDesk.FastTriage.Packet
import ContextDesk.InvestigationAnswer

/-!
# Reading and validating a fast answer

`FastTriageTerminal.parse` takes the typed object out of what a model sent. The two wrappers that it
removes are the parameter `TerminalReader`. `validateFastAnswer` runs the validator that every
answer goes through and then the checks of the fast-triage contract; all violated categories are
reported, in the order of the vocabulary.
-/

namespace ContextDesk

open Lib Lib.Text

inductive FastTriageFailureCategory where
  | emptyVisibleAnswer
  | malformedTerminal
  | schemaMismatch
  | duplicateId
  | foreignEvidenceId
  | crossCandidateEvidence
  | staleEvidenceRevision
  | ungroundedClaim
  | rootUnsupported
  | symptomPromotedToCause
  | independentEvidencePromoted
  | chronologyInverted
  | roleCoverage
  | contradictoryRoles
  | citationIncomplete
  | packetIdentityChanged
  | hostPacketInvalid
  deriving DecidableEq

namespace FastTriageFailureCategory

def asStr : FastTriageFailureCategory → String
  | emptyVisibleAnswer => "empty_visible_answer"
  | malformedTerminal => "malformed_terminal"
  | schemaMismatch => "schema_mismatch"
  | duplicateId => "duplicate_id"
  | foreignEvidenceId => "foreign_evidence_id"
  | crossCandidateEvidence => "cross_candidate_evidence"
  | staleEvidenceRevision => "stale_evidence_revision"
  | ungroundedClaim => "ungrounded_claim"
  | rootUnsupported => "root_unsupported"
  | symptomPromotedToCause => "symptom_promoted_to_cause"
  | independentEvidencePromoted => "independent_evidence_promoted"
  | chronologyInverted => "chronology_inverted"
  | roleCoverage => "role_coverage"
  | contradictoryRoles => "contradictory_roles"
  | citationIncomplete => "citation_incomplete"
  | packetIdentityChanged => "packet_identity_changed"
  | hostPacketInvalid => "host_packet_invalid"

def vocabulary : List FastTriageFailureCategory :=
  [emptyVisibleAnswer, malformedTerminal, schemaMismatch, duplicateId, foreignEvidenceId,
    crossCandidateEvidence, staleEvidenceRevision, ungroundedClaim, rootUnsupported,
    symptomPromotedToCause, independentEvidencePromoted, chronologyInverted, roleCoverage,
    contradictoryRoles, citationIncomplete, packetIdentityChanged, hostPacketInvalid]

def fromValidationError : ValidationError → FastTriageFailureCategory
  | .parse => malformedTerminal
  | .schema => schemaMismatch
  | .duplicateId => duplicateId
  | .unknownEvidence => foreignEvidenceId
  | .wrongScope => crossCandidateEvidence
  | .wrongRevision => staleEvidenceRevision
  | .emptyEvidence => ungroundedClaim
  | .rootRole => rootUnsupported
  | .roleMismatch => symptomPromotedToCause
  | .roleCoverage => roleCoverage
  | .emptyLedger => hostPacketInvalid
  | .invalidBinding => hostPacketInvalid
  | .digestMismatch => hostPacketInvalid

def isHostSide (category : FastTriageFailureCategory) : Bool :=
  category = packetIdentityChanged || category = hostPacketInvalid

end FastTriageFailureCategory

/-! ## Terminals -/

inductive FastTriageTerminalState where
  | typedObject
  | emptyVisible
  | malformed
  deriving DecidableEq

structure ToolCallMsg where
  id : String
  name : String
  arguments : String
  deriving DecidableEq

structure ChatCompletion where
  content : String
  toolCalls : List ToolCallMsg
  finishReason : String
  deriving DecidableEq

structure FastTriageToolCallRef where
  id : String
  name : String
  argumentChars : Nat
  deriving DecidableEq

structure FastTriageTerminal where
  visible : String
  typedObject : Option String
  reasoning : String
  toolCalls : List FastTriageToolCallRef
  finishReason : String
  state : FastTriageTerminalState
  deriving DecidableEq

structure TerminalReader where
  /-- The reasoning and what is left. -/
  splitCompleteReasoningPrefix : String → String × String
  normalizeKnownJsonWrapper : String → Option String

def isBlank (s : String) : Bool := (trim s.toList).isEmpty

namespace FastTriageTerminal

def fromRaw (reader : TerminalReader) (raw finishReason : String)
    (toolCalls : List FastTriageToolCallRef) : FastTriageTerminal :=
  let (reasoning, visible) := reader.splitCompleteReasoningPrefix raw
  let (state, typedObject) : FastTriageTerminalState × Option String :=
    if isBlank visible then (.emptyVisible, none)
    else
      match reader.normalizeKnownJsonWrapper visible with
      | some object => if isBlank object then (.emptyVisible, none) else (.typedObject, some object)
      | none => (.malformed, none)
  { visible := visible, typedObject := typedObject, reasoning := reasoning,
    toolCalls := toolCalls, finishReason := finishReason, state := state }

/-- The streamed text stands in for a completion without content. -/
def parse (reader : TerminalReader) (completion : ChatCompletion) (streamed : String) :
    FastTriageTerminal :=
  fromRaw reader (if isBlank completion.content then streamed else completion.content)
    completion.finishReason (completion.toolCalls.map fun call =>
      { id := call.id, name := call.name, argumentChars := call.arguments.length })

def reasoningPresent (terminal : FastTriageTerminal) : Bool := !isBlank terminal.reasoning

end FastTriageTerminal

/-! ## The checks of the contract -/

inductive FastTriageValidation where
  | accepted (envelope : AnswerEnvelopeV1)
  | rejected (categories : List FastTriageFailureCategory)
  deriving DecidableEq

def FastTriagePacketV1.row (packet : FastTriagePacketV1) (evidenceId : String) :
    Option FastTriagePacketRow :=
  packet.rows.find? fun row => row.evidenceId = evidenceId

def isChainKind (kind : ClaimKind) : Bool :=
  kind = .symptom || kind = .causalCandidate || kind = .initiatingCause

section

variable (packet : FastTriagePacketV1)

/-- A claim and the rows of the packet that it cites. -/
structure CitedClaim where
  candidateId : String
  claim : InvestigationClaimV1
  rows : List FastTriagePacketRow

def citedClaims (candidates : List InvestigationCandidateV1) : List CitedClaim :=
  candidates.flatMap fun candidate => candidate.claims.map fun claim =>
    { candidateId := candidate.candidateId, claim := claim,
      rows := claim.evidenceIds.filterMap packet.row }

def CitedClaim.categories (cited : CitedClaim) : List FastTriageFailureCategory :=
  (if cited.claim.claimKind = .initiatingCause ∧ cited.claim.status = .withheld then
    [.rootUnsupported] else []) ++
  cited.rows.flatMap fun row =>
    (if row.role = .symptom ∧ (cited.claim.claimKind = .causalCandidate ∨
        cited.claim.claimKind = .initiatingCause) then [.symptomPromotedToCause] else []) ++
    (if row.scope = .independent ∧ isChainKind cited.claim.claimKind then
      [.independentEvidencePromoted] else [])

def citedKinds (cited : List CitedClaim) (row : FastTriagePacketRow) : List ClaimKind :=
  (cited.filter fun c => row.evidenceId ∈ c.rows.map FastTriagePacketRow.evidenceId).map
    fun c => c.claim.claimKind

/-- Both in a chain and a competing explanation, or both an initiating cause and a symptom. -/
def contradictory (kinds : List ClaimKind) : Bool :=
  (kinds.any isChainKind && .competingExplanation ∈ kinds) ||
    (.initiatingCause ∈ kinds && .symptom ∈ kinds)

/-- The least ordinal that the candidate cites in claims of the kind. -/
def earliest (cited : List CitedClaim) (candidateId : String) (kind : ClaimKind) :
    Option UInt64 :=
  ((cited.filter fun c => c.candidateId = candidateId ∧ c.claim.claimKind = kind).flatMap
    fun c => c.rows.filterMap FastTriagePacketRow.chronologyOrdinal).min?

def chronologyInverted (cited : List CitedClaim) (candidateId : String) : Bool :=
  match earliest cited candidateId .initiatingCause, earliest cited candidateId .symptom with
  | some cause, some symptom => cause > symptom
  | _, _ => false

/-- The candidate cites one of the rows in a claim of one of the kinds. -/
def citedIn (candidates : List InvestigationCandidateV1) (candidateId : String)
    (kinds : List ClaimKind) (ids : List String) : Bool :=
  match candidates.find? fun candidate => candidate.candidateId = candidateId with
  | some candidate => candidate.claims.any fun claim =>
      claim.claimKind ∈ kinds && claim.evidenceIds.any fun id => id ∈ ids
  | none => false

/-- The ids of the candidate's rows of a role. -/
def rowsOfRole (role : EvidenceRole) (candidateId : String) : List String :=
  (packet.rows.filter fun row => row.role = role ∧ row.candidateId = candidateId).map
    FastTriagePacketRow.evidenceId

/-- Each candidate with rows of the role cites one of them in a claim of one of the kinds. -/
def roleCovered (candidates : List InvestigationCandidateV1) (role : EvidenceRole)
    (kinds : List ClaimKind) : Bool :=
  packet.rows.all fun row => row.role ≠ role ||
    citedIn candidates row.candidateId kinds (rowsOfRole packet role row.candidateId)

/-- Some claim of the candidate cites evidence. -/
def groundedClaim (candidates : List InvestigationCandidateV1) (candidateId : String) : Bool :=
  candidates.any fun candidate => candidate.candidateId = candidateId &&
    candidate.claims.any fun claim => claim.evidenceIds ≠ []

def contractCategories (candidates : List InvestigationCandidateV1) :
    List FastTriageFailureCategory :=
  let cited := citedClaims packet candidates
  let found := cited.flatMap CitedClaim.categories ++
    (if (cited.flatMap CitedClaim.rows).any fun row => contradictory (citedKinds cited row) then
      [.contradictoryRoles] else []) ++
    (if candidates.any fun candidate => chronologyInverted cited candidate.candidateId then
      [.chronologyInverted] else []) ++
    (if roleCovered packet candidates .cause [.causalCandidate, .initiatingCause] &&
        roleCovered packet candidates .symptom [.symptom] then [] else [.roleCoverage]) ++
    (if packet.rows.all fun row => groundedClaim candidates row.candidateId then []
      else [.citationIncomplete])
  FastTriageFailureCategory.vocabulary.filter fun category => category ∈ found

end

def validateFastAnswer (fromStr : String → Option ModelInvestigationAnswerV1) (object : String)
    (packet : FastTriagePacketV1) : FastTriageValidation :=
  match validateModelAnswer fromStr object packet.ledger with
  | .error e => .rejected [FastTriageFailureCategory.fromValidationError e]
  | .ok envelope =>
    let categories := contractCategories packet envelope.answer.candidates
    if categories = [] then .accepted envelope else .rejected categories

end ContextDesk
