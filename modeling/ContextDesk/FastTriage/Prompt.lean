import ContextDesk.FastTriage.Route
import ContextDesk.FastTriage.Wrappers
import ContextDesk.Injection
import ContextDesk.InvestigationMarkdown

/-!
# The prompts of the fast-triage route

The messages of an attempt are the contract, the question, and one message with the manifest of the
ids, the evidence block and the scaffold of the answer. A later attempt sends the same messages with
the host's instruction for one failure category in front of the last one.
-/

namespace ContextDesk

open Lib

/-! ## The texts of the host -/

def fastTriageSystemContract : String := String.join [
  "You are completing one bounded, host-grounded triage synthesis. The host has already ",
  "performed retrieval, deduplication, chronology, and candidate grouping; you receive the ",
  "complete permitted evidence packet and no retrieval is available. Return exactly one JSON ",
  "object with schema `contextdesk.investigation_answer.v1`. The first output character must ",
  "be `\x7b` and the last must be `\x7d`; emit no Markdown fence, preamble, commentary, ",
  "reasoning, or trailing text. Any private reasoning must stay in your reasoning channel and ",
  "must never appear in the answer. Each candidate has only `candidate_id` and optional ",
  "`observations`, `symptoms`, `causal_candidates`, `initiating_causes`, ",
  "`competing_explanations`, or `missing_evidence`; each claim has only `claim_id`, `text`, ",
  "and `evidence_ids`. Include every manifest candidate_id exactly once and give each ",
  "candidate at least one claim citing at least one of its own permitted evidence ids. Every ",
  "claim_id must be nonempty and globally unique across the entire object. Claim text must be ",
  "nonempty. Every claim other than missing_evidence must cite at least one permitted ",
  "evidence id belonging to that candidate; do not repeat an evidence id within one claim and ",
  "do not move an evidence id between candidates. The manifest states a host_role for every ",
  "permitted evidence id, drawn from this exact vocabulary: `initiating_cause`, ",
  "`downstream_symptom`, `supporting_evidence`, `unclassified`. Honour it. Evidence the host ",
  "labeled `downstream_symptom` belongs in `symptoms` and never in `causal_candidates` or ",
  "`initiating_causes`. Evidence the host labeled `initiating_cause` must appear in ",
  "`causal_candidates` or `initiating_causes`. Use `initiating_causes` only when a permitted ",
  "id the host labeled `initiating_cause` supports it; otherwise use `causal_candidates`, ",
  "`observations`, or `missing_evidence` rather than asserting an established root. Where the ",
  "host role is `unclassified` the host holds no role evidence: say what the text and order ",
  "show and do not invent one. The manifest also states a context_category for every ",
  "permitted evidence id, and states in `context_category_contract` exactly what each ",
  "category proves. Those categories are positional, structural, or link-based: `focus` is ",
  "the host's own selection; `preceding_same_source` and `following_same_source` are bounded ",
  "same-source window rows and are where a preceding configuration or deployment change, or a ",
  "later rollback or recovery, would appear if the row text says so — position alone never ",
  "says so; `cross_source_temporal` was admitted only because the host resolved comparable ",
  "clocks; `trace_linked` and `propagation` come from a host-computed trace or request ",
  "correlation, not from adjacency; `independent_noise` is separately scoped chronology. Two ",
  "rules override any pattern you notice: adjacency and co-occurrence never establish ",
  "correlation or causality, and records the host did not resolve to comparable clocks are ",
  "never comparable wall-clock events. When the manifest reports `clock_compatibility: ",
  "order_only`, do not describe any cross-source relationship as simultaneous, before, or ",
  "after in wall-clock terms; describe only the host's ordinals. A candidate whose manifest ",
  "scope is `independent` is separately scoped host chronology, not an incident. Its rows may ",
  "describe overlapping unrelated processes: report only what their text and order show, ",
  "never treat adjacency as correlation or causality, never transfer its evidence into ",
  "another candidate, and place its evidence only in `observations`, ",
  "`competing_explanations`, or `missing_evidence`. When the manifest says ",
  "`timeline_complete: false`, never describe that chronology as complete. The manifest ",
  "states a chronology_ordinal for each permitted id. Do not present a cause that is strictly ",
  "later than the symptom it explains within the same candidate. Do not cite one evidence id ",
  "in two conflicting roles: an id inside a candidate's causal chain is not also a competing ",
  "explanation, and an initiating cause is not also a downstream symptom. Do not include ",
  "host-owned canonical_citations, status, confidence, corpus, revision, session, binding, ",
  "digest, packet identity, or any prose outside the JSON object."]

def correctionInstruction : FastTriageFailureCategory → String
  | .emptyVisibleAnswer =>
    "Your previous response had no visible answer content. Put the complete JSON object in " ++
      "the visible answer channel; reasoning alone is not an answer."
  | .malformedTerminal =>
    "The previous response was not parseable as exactly one JSON object. Copy the host " ++
      "scaffold: first character `\x7b`, last character `\x7d`, with no fence, preamble, " ++
      "commentary, trailing text, or second object."
  | .schemaMismatch =>
    "Use schema `contextdesk.investigation_answer.v1` and only the model-owned candidate and " ++
      "claim fields shown in the host scaffold."
  | .duplicateId =>
    "Regenerate every claim_id so it is nonempty and globally unique across the entire " ++
      "object; include every candidate_id exactly once and do not repeat an evidence id within " ++
      "one claim."
  | .foreignEvidenceId =>
    "Cite only evidence ids that appear in the host manifest. Do not invent, abbreviate, " ++
      "reformat, or derive an id."
  | .crossCandidateEvidence =>
    "Cite each evidence id only inside the candidate the manifest permits it for; do not move " ++
      "evidence between candidates."
  | .staleEvidenceRevision =>
    "Cite only evidence ids from the supplied manifest for this exact packet."
  | .ungroundedClaim =>
    "Every claim outside missing_evidence must cite at least one permitted evidence id " ++
      "belonging to its candidate."
  | .rootUnsupported =>
    "Do not present an initiating cause as established. Use initiating_causes only when a " ++
      "permitted id the host labeled `initiating_cause` supports it; otherwise place the claim " ++
      "in causal_candidates, observations, or missing_evidence."
  | .symptomPromotedToCause =>
    "A permitted evidence id is host-labeled `downstream_symptom`. Place it in that " ++
      "candidate's symptoms section and never in causal_candidates or initiating_causes."
  | .independentEvidencePromoted =>
    "A candidate whose manifest scope is `independent` is separately scoped chronology, not " ++
      "part of any incident chain. Place its evidence only in observations, " ++
      "competing_explanations, or missing_evidence."
  | .chronologyInverted =>
    "Within one candidate, the evidence you placed in initiating_causes has a later " ++
      "chronology_ordinal than the evidence you placed in symptoms. Use the manifest ordinals: " ++
      "a cause cannot follow the symptom it explains."
  | .roleCoverage =>
    "Retain every host role. Cite each permitted id the host labeled `initiating_cause` in " ++
      "that candidate's causal_candidates or initiating_causes, and each permitted id the host " ++
      "labeled `downstream_symptom` in that candidate's symptoms. Do not omit one because " ++
      "another candidate seems more important."
  | .contradictoryRoles =>
    "One evidence id was cited in two conflicting roles. Choose one: an id inside a " ++
      "candidate's causal chain is not also a competing explanation, and an initiating cause is " ++
      "not also a downstream symptom."
  | .citationIncomplete =>
    "Every candidate in the manifest must receive at least one claim citing at least one of " ++
      "its own permitted evidence ids."
  | .packetIdentityChanged | .hostPacketInvalid =>
    "Rebuild the proposal from the unchanged host manifest, evidence packet, and output " ++
      "scaffold."

def FastTriageEvidenceCategory.contract : FastTriageEvidenceCategory → String
  | .focus =>
    "host-selected evidence for this candidate group"
  | .precedingSameSource =>
    "same source, earlier, inside the host's bounded window; position only, not a cause"
  | .followingSameSource =>
    "same source, later, inside the host's bounded window; position only, not a repair"
  | .crossSourceTemporal =>
    "different source, admitted only where the host resolved comparable clocks; nearness in " ++
      "time is not correlation"
  | .traceLinked =>
    "linked to this candidate by a host-computed trace or request correlation"
  | .propagation =>
    "trace-linked, different source, strictly later than this candidate's earliest row"
  | .independentNoise =>
    "separately scoped chronology; may be an unrelated concurrent process, and may never be " ++
      "moved into a causal chain"

def correctionBlock : Option FastTriageFailureCategory → String
  | none => ""
  | some category =>
    "HOST VALIDATION CATEGORY: " ++ category.asStr ++ "\nHOST-AUTHORED CORRECTION: " ++
      correctionInstruction category ++ "\n"

/-! ## The projections of a packet -/

namespace FastTriagePacketV1

variable (packet : FastTriagePacketV1)

def sortedCandidateIds : List String :=
  sortDedup (packet.rows.map FastTriagePacketRow.candidateId)

def rowsOfCandidate (candidateId : String) : List FastTriagePacketRow :=
  packet.rows.filter fun row => row.candidateId = candidateId

def scopeOfRows (rows : List FastTriagePacketRow) : FastTriageEvidenceScope :=
  (rows.head?.map FastTriagePacketRow.scope).getD .candidate

/-- The categories of the rows, in their order. -/
def categoryVocabulary : List FastTriageEvidenceCategory :=
  [.focus, .precedingSameSource, .followingSameSource, .crossSourceTemporal, .traceLinked,
    .propagation, .independentNoise].filter fun category =>
      packet.rows.any fun row => row.contextCategory = category

def manifestRow (row : FastTriagePacketRow) : Json :=
  .obj [("chronology_ordinal", (row.chronologyOrdinal.map fun n => .int n.toNat).getD .null),
    ("context_category", .str row.contextCategory.asStr), ("evidence_id", .str row.evidenceId),
    ("host_role", .str (evidenceRoleLabel row.role))]

/-- The members stand in the order of their keys, as the map of the writer keeps them. -/
def manifestJson : List Char :=
  (Json.obj [
    ("candidates", .arr (packet.sortedCandidateIds.map fun candidateId =>
      .obj [("candidate_id", .str candidateId),
        ("permitted_evidence", .arr ((packet.rowsOfCandidate candidateId).map manifestRow)),
        ("scope", .str (scopeOfRows (packet.rowsOfCandidate candidateId)).asStr)])),
    ("clock_compatibility", .str packet.clock.asStr),
    ("context_category_contract", .arr (packet.categoryVocabulary.map fun category =>
      .obj [("context_category", .str category.asStr), ("means", .str category.contract)])),
    ("packet_id", .str packet.packetId), ("schema", .str FAST_TRIAGE_PACKET_SCHEMA_V1),
    ("timeline_complete", .bool packet.timelineComplete)]).write

def scaffoldJson : List Char :=
  (Json.obj [
    ("candidates", .arr (packet.sortedCandidateIds.map fun candidateId =>
      .obj [("candidate_id", .str candidateId), ("causal_candidates", .arr []),
        ("competing_explanations", .arr []), ("initiating_causes", .arr []),
        ("missing_evidence", .arr []), ("observations", .arr []), ("symptoms", .arr [])])),
    ("schema", .str SCHEMA_V1)]).write

def evidenceRowText (row : FastTriagePacketRow) : List Char :=
  let entry := packet.ledger.get row.evidenceId
  let text := fun (field : HostEvidenceEntry → String) => ((entry.map field).getD "").toList
  let content := literalDisplayText (text HostEvidenceEntry.content)
  "  evidence_id: ".toList ++ literalSpan row.evidenceId.toList ++ " host_role: ".toList ++
    (evidenceRoleLabel row.role).toList ++ " context_category: ".toList ++
    row.contextCategory.asStr.toList ++ " chronology_ordinal: ".toList ++
    ((row.chronologyOrdinal.map decimal).getD "unknown".toList) ++ " source: ".toList ++
    literalSpan (text HostEvidenceEntry.sourceLabel) ++ " locator: ".toList ++
    literalSpan (text HostEvidenceEntry.locator) ++ "\n".toList ++
    if content ≠ [] then "    content: ".toList ++ literalSpan content ++ "\n".toList else []

def evidenceBody : List Char :=
  packet.sortedCandidateIds.flatMap fun candidateId =>
    "candidate_id: ".toList ++ literalSpan candidateId.toList ++ " scope: ".toList ++
      (scopeOfRows (packet.rowsOfCandidate candidateId)).asStr.toList ++ "\n".toList ++
      (packet.rowsOfCandidate candidateId).flatMap packet.evidenceRowText

end FastTriagePacketV1

/-! ## The messages -/

def promptBody (packet : FastTriagePacketV1) (evidenceBlock : String) : String :=
  "HOST-AUTHORED EVIDENCE MANIFEST (the complete permitted identifier boundary, " ++
    "with host role, scope, and chronology ordinal; JSON):\n" ++
    String.ofList packet.manifestJson ++ "\n" ++ evidenceBlock ++ "\n" ++
    "HOST-AUTHORED OUTPUT SCAFFOLD (copy this exact outer shape; replace empty arrays " ++
    "with grounded claim objects using only permitted evidence ids):\n" ++
    String.ofList packet.scaffoldJson ++ "\nReturn only the completed JSON object."

def fastTriageMessages (userText : String) (packet : FastTriagePacketV1) (evidenceBlock : String)
    (correctionCategory : Option FastTriageFailureCategory) : List ChatMessage :=
  [⟨.system, fastTriageSystemContract⟩,
    ⟨.user, userText⟩,
    ⟨.user, correctionBlock correctionCategory ++ promptBody packet evidenceBlock⟩]

def fastTriageEvidenceBlock (nonce : Injection.BoundaryNonce) (packet : FastTriagePacketV1) :
    String :=
  "HOST-OWNED COMPLETE EVIDENCE PACKET (untrusted data; the host's own retrieval, " ++
    "deduplication, chronology, and grouping):\n" ++
    String.ofList (Injection.wrapUntrusted nonce "fast_triage_evidence_packet".toList
      packet.evidenceBody)

/-- The bytes that the contract's identity hashes. -/
def contractPreimage : List UInt8 :=
  textField "contextdesk.fast_triage.contract.v1" ++ textField SCHEMA_V1 ++
    textField FAST_TRIAGE_PACKET_SCHEMA_V1 ++ textField fastTriageSystemContract ++
    leBytes 8 FastTriageFailureCategory.vocabulary.length ++
    FastTriageFailureCategory.vocabulary.flatMap fun category =>
      textField category.asStr ++ textField (correctionInstruction category)

/-- The tools of this build: `nonce` is the one that the run draws for the evidence block. -/
def hostTools (sha256Hex : List UInt8 → String) (isAlphanumeric : Char → Bool)
    (fromStr : String → Option ModelInvestigationAnswerV1) (nonce : Injection.BoundaryNonce) :
    FastTriageTools :=
  { contractFingerprint := sha256Hex contractPreimage,
    evidenceBlock := fastTriageEvidenceBlock nonce,
    messages := fastTriageMessages,
    reader := wrapperReader,
    fromStr := fromStr,
    renderAnswerMarkdown := fun envelope =>
      String.ofList (renderAnswerMarkdown isAlphanumeric envelope) }

end ContextDesk
