import ContextDesk.FastTriage.Validate
import ContextDesk.Lib.Json

/-!
# The fast-triage route

`runFastTriageRoute` selects the route from persisted records, asks the primary backend once, asks
it once more with the host's correction, and hands the packet to a configured and authorized
fallback. A call is one `complete_streaming`, whatever the turn's deadline and cancel flag make of
it; the replies come from a `World` that may look at all earlier calls. `calls` in the state of a
run lists them: the code has no such list, it has the telemetry.
-/

namespace ContextDesk

open Lib

/-! ## Selecting the route -/

inductive FastTriageWorkflowContract where
  | hostGroundedSynthesisCompletePacket
  deriving DecidableEq

inductive FastTriageRouteVerdict where
  | qualified
  | unqualified
  | inconclusive
  deriving DecidableEq

structure FastTriageRouteRecord where
  profileId : String
  modelId : String
  workflowContract : FastTriageWorkflowContract
  verdict : FastTriageRouteVerdict
  contractFingerprint : String
  deriving DecidableEq

structure FastTriageRouteRequest where
  enabled : Bool
  profileId : Option String
  modelId : Option String
  workflowContract : FastTriageWorkflowContract
  contractFingerprint : String
  deriving DecidableEq

inductive FastTriageRouteRejection where
  | routeDisabled
  | turnIdentityUnknown
  | noRecordForProfileModel
  | workflowContractMismatch
  | verdictNotQualified
  | contractFingerprintStale
  | packetExceedsContextBudget
  deriving DecidableEq

structure FastTriageRoleBinding where
  profileId : String
  modelId : String
  deriving DecidableEq

structure SelectedFastRoute where
  role : FastTriageRoleBinding
  workflowContract : FastTriageWorkflowContract
  contractFingerprint : String
  deriving DecidableEq

inductive FastTriageRouteSelection where
  | selected (route : SelectedFastRoute)
  | notSelected (rejection : FastTriageRouteRejection)
  deriving DecidableEq

def selectFastTriageRoute (records : List FastTriageRouteRecord)
    (request : FastTriageRouteRequest) : FastTriageRouteSelection :=
  if !request.enabled then .notSelected .routeDisabled
  else
    match request.profileId, request.modelId with
    | some profileId, some modelId =>
      if isBlank profileId || isBlank modelId then .notSelected .turnIdentityUnknown
      else
        let forPair := records.filter fun record =>
          record.profileId = profileId ∧ record.modelId = modelId
        let forContract := forPair.filter fun record =>
          record.workflowContract = request.workflowContract
        let qualified := forContract.filter fun record => record.verdict = .qualified
        if forPair = [] then .notSelected .noRecordForProfileModel
        else if forContract = [] then .notSelected .workflowContractMismatch
        else if qualified = [] then .notSelected .verdictNotQualified
        else if qualified.any fun record =>
            record.contractFingerprint ≠ request.contractFingerprint then
          .notSelected .contractFingerprintStale
        else .selected { role := ⟨profileId, modelId⟩,
                         workflowContract := request.workflowContract,
                         contractFingerprint := request.contractFingerprint }
    | _, _ => .notSelected .turnIdentityUnknown

/-! ## Telemetry -/

def FAST_TRIAGE_TELEMETRY_SCHEMA_V1 : String := "contextdesk.fast_triage.telemetry.v1"

inductive FastTriageStage where
  | primary
  | correction
  | escalation
  deriving DecidableEq

def FastTriageStage.asStr : FastTriageStage → String
  | .primary => "primary"
  | .correction => "correction"
  | .escalation => "escalation"

inductive FastTriageAttemptOutcome where
  | accepted
  | rejected
  | providerFailed
  | deadline
  | cancelled
  deriving DecidableEq

def FastTriageAttemptOutcome.asStr : FastTriageAttemptOutcome → String
  | .accepted => "accepted"
  | .rejected => "rejected"
  | .providerFailed => "provider_failed"
  | .deadline => "deadline"
  | .cancelled => "cancelled"

structure FastTriageAttemptTelemetry where
  stage : FastTriageStage
  profileId : String
  modelId : String
  terminalState : Option FastTriageTerminalState
  reasoningPresent : Bool
  reasoningChars : Nat
  visibleChars : Nat
  toolCalls : Nat
  outcome : FastTriageAttemptOutcome
  categories : List FastTriageFailureCategory
  deriving DecidableEq

inductive FastTriageEscalationState where
  | notRequested
  | notConfigured
  | notAuthorized
  | requested
  | succeeded
  | failed
  | packetIdentityChanged
  deriving DecidableEq

structure FastTriageEscalationTelemetry where
  state : FastTriageEscalationState
  profileId : Option String
  modelId : Option String
  packetId : Option String
  deriving DecidableEq

def FastTriageEscalationTelemetry.notRequested : FastTriageEscalationTelemetry :=
  ⟨.notRequested, none, none, none⟩

inductive FastTriageOutcomeLabel where
  | notSelected
  | verifiedFastAnswer
  | verifiedAfterCorrection
  | verifiedAfterEscalation
  | partialInconclusive
  | escalationRequested
  | cancelled
  | deadline
  | providerFailed
  deriving DecidableEq

inductive FastTriageRoleEvidence where
  | hostLabelled
  | hostNeutral
  deriving DecidableEq

structure FastTriagePacketTelemetry where
  packetId : String
  candidateCount : Nat
  evidenceRowCount : Nat
  independentRowCount : Nat
  roleEvidence : FastTriageRoleEvidence
  timelineComplete : Bool
  deriving DecidableEq

/-- The candidates in the packet, without the independent scope. -/
def FastTriagePacketV1.candidateIds (packet : FastTriagePacketV1) : List String :=
  ((packet.rows.filter fun row => row.scope = .candidate).map
    FastTriagePacketRow.candidateId).dedup

def FastTriagePacketV1.roleEvidence (packet : FastTriagePacketV1) : FastTriageRoleEvidence :=
  if packet.rows.any fun row => row.role ≠ .neutral then .hostLabelled else .hostNeutral

def FastTriagePacketTelemetry.fromPacket (packet : FastTriagePacketV1) :
    FastTriagePacketTelemetry :=
  { packetId := packet.packetId, candidateCount := packet.candidateIds.length,
    evidenceRowCount := packet.rows.length,
    independentRowCount := packet.rows.countP fun row => row.scope = .independent,
    roleEvidence := packet.roleEvidence, timelineComplete := packet.timelineComplete }

structure FastTriageTelemetryV1 where
  schema : String
  routeSelected : Bool
  selectionRejection : Option FastTriageRouteRejection
  workflowContract : FastTriageWorkflowContract
  contractFingerprint : String
  role : Option FastTriageRoleBinding
  packet : Option FastTriagePacketTelemetry
  attempts : List FastTriageAttemptTelemetry
  providerAttempts : Nat
  correctionUsed : Bool
  correctionCategory : Option FastTriageFailureCategory
  validationCategories : List FastTriageFailureCategory
  escalation : FastTriageEscalationTelemetry
  deadlineMs : UInt64
  outcome : FastTriageOutcomeLabel
  deriving DecidableEq

/-! ## Inputs and outcomes -/

inductive Role where
  | system
  | user
  deriving DecidableEq

structure ChatMessage where
  role : Role
  content : String
  deriving DecidableEq

structure FastTriageFallback where
  profileId : String
  modelId : String
  authorized : Bool
  deriving DecidableEq

structure FastTriageBudget where
  deadlineMs : UInt64
  contextCharBudget : Nat
  maxCorrections : UInt8
  deriving DecidableEq

def FAST_TRIAGE_MAX_CORRECTIONS : UInt8 := 1

def FastTriageBudget.effectiveCorrections (budget : FastTriageBudget) : UInt8 :=
  min budget.maxCorrections FAST_TRIAGE_MAX_CORRECTIONS

structure FastTriageInputs where
  userText : String
  packet : FastTriagePacketV1
  expectedPacketId : Option String
  enabled : Bool
  records : List FastTriageRouteRecord
  profileId : Option String
  modelId : Option String
  fallback : Option FastTriageFallback
  budget : FastTriageBudget
  /-- The cancel flag when the route first looks at it. -/
  alreadyCancelled : Bool

/-- What the route is given beside its inputs: the prompts, the reader of answers and the
projection of an envelope to text. -/
structure FastTriageTools where
  contractFingerprint : String
  evidenceBlock : FastTriagePacketV1 → String
  messages : String → FastTriagePacketV1 → String → Option FastTriageFailureCategory →
    List ChatMessage
  reader : TerminalReader
  fromStr : String → Option ModelInvestigationAnswerV1
  renderAnswerMarkdown : AnswerEnvelopeV1 → String

def estimateContextChars (messages : List ChatMessage) : Nat :=
  (messages.map fun m => m.content.utf8ByteSize).sum

def SYNTHESIS_CONTEXT_HEADROOM_CHARS : Nat := 12000

def synthesisPackingBudget (hardBudgetChars : Nat) : Nat :=
  hardBudgetChars - min (min SYNTHESIS_CONTEXT_HEADROOM_CHARS (hardBudgetChars / 10))
    (hardBudgetChars / 2)

inductive FastTriageRouteOutcome (E : Type) where
  | notSelected (rejection : FastTriageRouteRejection) (telemetry : FastTriageTelemetryV1)
  | verified (envelope : AnswerEnvelopeV1) (content : String) (telemetry : FastTriageTelemetryV1)
  | partialAnswer (categories : List FastTriageFailureCategory) (telemetry : FastTriageTelemetryV1)
  | escalationRequested (packet : FastTriagePacketV1)
      (categories : List FastTriageFailureCategory) (telemetry : FastTriageTelemetryV1)
  | cancelled (telemetry : FastTriageTelemetryV1)
  | deadline (telemetry : FastTriageTelemetryV1)
  | providerFailed (error : E) (telemetry : FastTriageTelemetryV1)

def FastTriageRouteOutcome.telemetry {E : Type} :
    FastTriageRouteOutcome E → FastTriageTelemetryV1
  | .notSelected _ telemetry => telemetry
  | .verified _ _ telemetry => telemetry
  | .partialAnswer _ telemetry => telemetry
  | .escalationRequested _ _ telemetry => telemetry
  | .cancelled telemetry => telemetry
  | .deadline telemetry => telemetry
  | .providerFailed _ telemetry => telemetry

/-! ## One attempt -/

/-- What comes of one call within the deadline and under the cancel flag. -/
inductive Reply (E : Type) where
  | completed (completion : ChatCompletion) (streamed : List String)
  | failed (error : E) (cancelFlag : Bool)
  | cancelled
  | deadline

inductive Backend where
  | primary
  | fallback
  deriving DecidableEq

structure ProviderCall (E : Type) where
  backend : Backend
  messages : List ChatMessage
  reply : Reply E

/-- The reply to a call, after the calls so far. -/
abbrev World (E : Type) := List (ProviderCall E) → Backend → List ChatMessage → Reply E

def FAST_TRIAGE_RESPONSE_CHAR_CAP : Nat := 32000

structure BoundedStream where
  text : List Char := []
  exceeded : Bool := false
  deriving DecidableEq

def BoundedStream.pushChar (stream : BoundedStream) (c : Char) : BoundedStream :=
  if stream.exceeded then stream
  else if FAST_TRIAGE_RESPONSE_CHAR_CAP ≤ stream.text.length then { stream with exceeded := true }
  else { stream with text := stream.text ++ [c] }

def BoundedStream.push (stream : BoundedStream) (fragment : String) : BoundedStream :=
  fragment.toList.foldl pushChar stream

def BoundedStream.take (stream : BoundedStream) : String :=
  if stream.exceeded then "" else String.ofList stream.text

structure RunTelemetry where
  attempts : List FastTriageAttemptTelemetry := []
  providerAttempts : Nat := 0
  correctionUsed : Bool := false
  correctionCategory : Option FastTriageFailureCategory := none
  validationCategories : List FastTriageFailureCategory := []
  escalation : FastTriageEscalationTelemetry := .notRequested
  deriving DecidableEq

structure FastTriageStageEvent where
  stage : FastTriageStage
  started : Bool
  outcome : Option FastTriageAttemptOutcome
  detail : Json

structure RouteState (E : Type) where
  run : RunTelemetry := {}
  calls : List (ProviderCall E) := []
  events : List FastTriageStageEvent := []

inductive AttemptResult (E : Type) where
  | accepted (envelope : AnswerEnvelopeV1)
  | rejected (categories : List FastTriageFailureCategory)
  | cancelled
  | deadline
  | providerFailed (error : E)

section

variable {E : Type} (tools : FastTriageTools) (packet : FastTriagePacketV1)

def judgeTerminal (terminal : FastTriageTerminal) : AttemptResult E :=
  match terminal.state with
  | .emptyVisible => .rejected [.emptyVisibleAnswer]
  | .malformed => .rejected [.malformedTerminal]
  | .typedObject =>
    match validateFastAnswer tools.fromStr (terminal.typedObject.getD "") packet with
    | .accepted envelope =>
      if envelope.binding.ledgerDigest ≠ packet.ledger.binding.ledgerDigest then
        .rejected [.packetIdentityChanged]
      else .accepted envelope
    | .rejected categories => .rejected categories

/-- The terminal of a reply, if it has one, and what the reply comes to. -/
def judgeReply : Reply E → Option FastTriageTerminal × AttemptResult E
  | .completed completion streamed =>
    let stream := streamed.foldl BoundedStream.push {}
    let terminal := FastTriageTerminal.parse tools.reader completion stream.take
    (some terminal, judgeTerminal tools packet terminal)
  | .failed error cancelFlag => (none, if cancelFlag then .cancelled else .providerFailed error)
  | .cancelled => (none, .cancelled)
  | .deadline => (none, .deadline)

def AttemptResult.outcome : AttemptResult E → FastTriageAttemptOutcome
  | .accepted _ => .accepted
  | .rejected _ => .rejected
  | .cancelled => .cancelled
  | .deadline => .deadline
  | .providerFailed _ => .providerFailed

def AttemptResult.categories : AttemptResult E → List FastTriageFailureCategory
  | .rejected categories => categories
  | _ => []

def recordAttempt (run : RunTelemetry) (stage : FastTriageStage) (role : FastTriageRoleBinding)
    (terminal : Option FastTriageTerminal) (outcome : FastTriageAttemptOutcome)
    (categories : List FastTriageFailureCategory) : RunTelemetry :=
  { run with
    validationCategories := categories,
    attempts := run.attempts ++
      [{ stage := stage, profileId := role.profileId, modelId := role.modelId,
         terminalState := terminal.map FastTriageTerminal.state,
         reasoningPresent := (terminal.map FastTriageTerminal.reasoningPresent).getD false,
         reasoningChars := (terminal.map fun t => t.reasoning.length).getD 0,
         visibleChars := (terminal.map fun t => t.visible.length).getD 0,
         toolCalls := (terminal.map fun t => t.toolCalls.length).getD 0,
         outcome := outcome, categories := categories }] }

def startedEvent (stage : FastTriageStage) (role : FastTriageRoleBinding) (run : RunTelemetry) :
    FastTriageStageEvent :=
  { stage := stage, started := true, outcome := none,
    detail := .obj [("schema", .str FAST_TRIAGE_TELEMETRY_SCHEMA_V1), ("stage", .str stage.asStr),
      ("profile_id", .str role.profileId), ("model_id", .str role.modelId),
      ("packet_id", .str packet.packetId), ("provider_attempts", .int run.providerAttempts)] }

def finishedEvent (stage : FastTriageStage) (outcome : FastTriageAttemptOutcome)
    (run : RunTelemetry) : FastTriageStageEvent :=
  { stage := stage, started := false, outcome := some outcome,
    detail := .obj [("schema", .str FAST_TRIAGE_TELEMETRY_SCHEMA_V1), ("stage", .str stage.asStr),
      ("outcome", .str outcome.asStr), ("packet_id", .str packet.packetId),
      ("provider_attempts", .int run.providerAttempts),
      ("validation_categories",
        .arr (run.validationCategories.map fun c => .str c.asStr))] }

/-- `saturating_add(1)` on `u32`. -/
def oneMore (n : Nat) : Nat := min (n + 1) (2 ^ 32 - 1)

def runAttempt (world : World E) (backend : Backend) (messages : List ChatMessage)
    (stage : FastTriageStage) (role : FastTriageRoleBinding) (s : RouteState E) :
    AttemptResult E × RouteState E :=
  let run := { s.run with providerAttempts := oneMore s.run.providerAttempts }
  let reply := world s.calls backend messages
  let (terminal, result) := judgeReply tools packet reply
  let recorded := recordAttempt run stage role terminal result.outcome result.categories
  (result,
    { run := recorded, calls := s.calls ++ [⟨backend, messages, reply⟩],
      events := s.events ++ [startedEvent packet stage role s.run,
        finishedEvent packet stage result.outcome recorded] })

end

/-! ## The route -/

section

variable {E : Type} (tools : FastTriageTools) (world : World E) (inputs : FastTriageInputs)

/-- How the attempts on the primary backend end. -/
inductive PrimaryEnd (E : Type) where
  | verified (envelope : AnswerEnvelopeV1) (label : FastTriageOutcomeLabel)
  | hostSide (categories : List FastTriageFailureCategory)
  | cancelled
  | deadline
  | providerFailed (error : E)
  /-- Every attempt was rejected, the last one for these categories. -/
  | exhausted (categories : List FastTriageFailureCategory)

/-- The loop over the attempts; `evidence` is minted once for all of them. -/
def primaryAttempts (evidence : String) (role : FastTriageRoleBinding) :
    List Nat → Option FastTriageFailureCategory → List FastTriageFailureCategory →
      RouteState E → PrimaryEnd E × RouteState E
  | [], _, categories, s => (.exhausted categories, s)
  | attempt :: attempts, correction, _, s =>
    let messages := tools.messages inputs.userText inputs.packet evidence
      (if attempt = 0 then none else correction)
    let s := if attempt = 0 then s
      else { s with run := { s.run with correctionUsed := true, correctionCategory := correction } }
    match runAttempt tools inputs.packet world .primary messages
        (if attempt = 0 then .primary else .correction) role s with
    | (.accepted envelope, s) =>
      (.verified envelope
        (if attempt = 0 then .verifiedFastAnswer else .verifiedAfterCorrection), s)
    | (.rejected rejected, s) =>
      if rejected.any FastTriageFailureCategory.isHostSide then (.hostSide rejected, s)
      else primaryAttempts evidence role attempts rejected.head? rejected s
    | (.cancelled, s) => (.cancelled, s)
    | (.deadline, s) => (.deadline, s)
    | (.providerFailed error, s) => (.providerFailed error, s)

def notSelectedTelemetry (rejection : FastTriageRouteRejection)
    (contract : FastTriageWorkflowContract) (fingerprint : String) (deadlineMs : UInt64) :
    FastTriageTelemetryV1 :=
  { schema := FAST_TRIAGE_TELEMETRY_SCHEMA_V1, routeSelected := false,
    selectionRejection := some rejection, workflowContract := contract,
    contractFingerprint := fingerprint, role := none, packet := none, attempts := [],
    providerAttempts := 0, correctionUsed := false, correctionCategory := none,
    validationCategories := [], escalation := .notRequested, deadlineMs := deadlineMs,
    outcome := .notSelected }

def finish (selected : SelectedFastRoute) (run : RunTelemetry)
    (outcome : FastTriageOutcomeLabel) : FastTriageTelemetryV1 :=
  { schema := FAST_TRIAGE_TELEMETRY_SCHEMA_V1, routeSelected := true, selectionRejection := none,
    workflowContract := selected.workflowContract,
    contractFingerprint := selected.contractFingerprint, role := some selected.role,
    packet := some (.fromPacket inputs.packet), attempts := run.attempts,
    providerAttempts := run.providerAttempts, correctionUsed := run.correctionUsed,
    correctionCategory := run.correctionCategory,
    validationCategories := run.validationCategories, escalation := run.escalation,
    deadlineMs := inputs.budget.deadlineMs, outcome := outcome }

/-- The account of an escalation that is not made. -/
def noEscalation : FastTriageEscalationTelemetry :=
  match inputs.fallback with
  | some fallback => ⟨if fallback.authorized then .notConfigured else .notAuthorized,
      some fallback.profileId, some fallback.modelId, none⟩
  | none => ⟨.notConfigured, none, none, none⟩

def escalate (evidence : String) (selected : SelectedFastRoute) (fallback : FastTriageFallback)
    (categories : List FastTriageFailureCategory) (s : RouteState E) :
    FastTriageRouteOutcome E × RouteState E :=
  let messages := tools.messages inputs.userText inputs.packet evidence categories.head?
  let account := fun state => FastTriageEscalationTelemetry.mk state (some fallback.profileId)
    (some fallback.modelId) (some inputs.packet.packetId)
  let s := { s with run := { s.run with escalation := account .requested } }
  let ended := fun (s : RouteState E) state =>
    { s with run := { s.run with escalation := account state } }
  match runAttempt tools inputs.packet world .fallback messages .escalation
      ⟨fallback.profileId, fallback.modelId⟩ s with
  | (.accepted envelope, s) =>
    let s := ended s .succeeded
    (.verified envelope (tools.renderAnswerMarkdown envelope)
      (finish inputs selected s.run .verifiedAfterEscalation), s)
  | (.rejected rejected, s) =>
    let s := ended s .failed
    (.partialAnswer rejected (finish inputs selected s.run .partialInconclusive), s)
  | (.cancelled, s) =>
    let s := ended s .failed
    (.cancelled (finish inputs selected s.run .cancelled), s)
  | (.deadline, s) =>
    let s := ended s .failed
    (.deadline (finish inputs selected s.run .deadline), s)
  | (.providerFailed error, s) =>
    let s := ended s .failed
    (.providerFailed error (finish inputs selected s.run .providerFailed), s)

/-- The route once it is selected, `backend` telling whether a fallback backend was handed over. -/
def runSelected (backend : Bool) (selected : SelectedFastRoute) :
    FastTriageRouteOutcome E × RouteState E :=
  let start : RouteState E := {}
  if inputs.expectedPacketId.any fun expected => expected ≠ inputs.packet.packetId then
    let run := { start.run with validationCategories := [.packetIdentityChanged] }
    (.partialAnswer [.packetIdentityChanged] (finish inputs selected run .partialInconclusive),
      { start with run := run })
  else if inputs.alreadyCancelled then
    (.cancelled (finish inputs selected start.run .cancelled), start)
  else
    let evidence := tools.evidenceBlock inputs.packet
    let initial := tools.messages inputs.userText inputs.packet evidence none
    if synthesisPackingBudget inputs.budget.contextCharBudget < estimateContextChars initial then
      (.notSelected .packetExceedsContextBudget
        { finish inputs selected start.run .notSelected with
          routeSelected := false, selectionRejection := some .packetExceedsContextBudget }, start)
    else
      let attempts := List.range (inputs.budget.effectiveCorrections.toNat + 1)
      match primaryAttempts tools world inputs evidence selected.role attempts none [] start with
      | (.verified envelope label, s) =>
        (.verified envelope (tools.renderAnswerMarkdown envelope)
          (finish inputs selected s.run label), s)
      | (.hostSide categories, s) =>
        (.partialAnswer categories (finish inputs selected s.run .partialInconclusive), s)
      | (.cancelled, s) => (.cancelled (finish inputs selected s.run .cancelled), s)
      | (.deadline, s) => (.deadline (finish inputs selected s.run .deadline), s)
      | (.providerFailed error, s) =>
        (.providerFailed error (finish inputs selected s.run .providerFailed), s)
      | (.exhausted categories, s) =>
        match inputs.fallback, backend with
        | some fallback, true =>
          if fallback.authorized then
            escalate tools world inputs evidence selected fallback categories s
          else
            let s := { s with run := { s.run with escalation := noEscalation inputs } }
            (.escalationRequested inputs.packet categories
              (finish inputs selected s.run .escalationRequested), s)
        | _, _ =>
          let s := { s with run := { s.run with escalation := noEscalation inputs } }
          (.escalationRequested inputs.packet categories
            (finish inputs selected s.run .escalationRequested), s)

def routeRequest : FastTriageRouteRequest :=
  { enabled := inputs.enabled, profileId := inputs.profileId, modelId := inputs.modelId,
    workflowContract := .hostGroundedSynthesisCompletePacket,
    contractFingerprint := tools.contractFingerprint }

def runFastTriageRoute (backend : Bool) : FastTriageRouteOutcome E × RouteState E :=
  match selectFastTriageRoute inputs.records (routeRequest tools inputs) with
  | .notSelected rejection =>
    (.notSelected rejection (notSelectedTelemetry rejection .hostGroundedSynthesisCompletePacket
      tools.contractFingerprint inputs.budget.deadlineMs), {})
  | .selected selected => runSelected tools world inputs backend selected

end

end ContextDesk
