import ContextDesk.Lib.FirstSeen
import ContextDesk.LogAnalysis.Exceptions.Matching

/-!
# Occurrences

`occurrenceFromRenderings` is the summary of one group of renderings, `annotateUnresolved` what is
added where a rendering stands alone, and `correlateRenderings` the summaries of all groups in their
final order, each with its signature.
-/

namespace ContextDesk.LogAnalysis.Exceptions

open Lib

structure ExceptionOccurrenceSummary where
  episodeId : Chars
  firstSeq : UInt64
  lastSeq : UInt64
  rawRecordCount : Nat
  applicationRecordCount : Nat
  stderrRecordCount : Nat
  renderingCount : Nat
  duplicateRendering : Bool
  correlationConfidence : ExceptionCorrelationConfidence
  reasonCodes : List String
  conflictCodes : List String
  relationTypes : List String
  renderingKinds : List ExceptionRenderingKind
  citations : List ExceptionEventCitation
  citationsComplete : Bool
  omittedCitationCount : Nat
  ambiguityCount : Nat
  deriving DecidableEq

/-! ## One group -/

def fnv (text : Chars) : UInt64 :=
  (Text.bytes text).foldl (fun hash b => (hash ^^^ b.toUInt64) * 0x100000001b3) 0xcbf29ce484222325

/-- `{:016x}`. -/
def hex16 (x : UInt64) : Chars :=
  let digits := Nat.toDigits 16 x.toNat
  List.replicate (16 - digits.length) '0' ++ digits

def episodeId (citations : List ExceptionEventCitation) : Chars :=
  let parts := sortBy id (citations.map fun c => c.source ++ ":" ++ toString c.seq.toNat)
  "ep-".toList ++ hex16 (fnv (['|'].intercalate (parts.map String.toList)))

def ExceptionCitationRole.asU8 : ExceptionCitationRole → Nat
  | renderingLead => 0
  | supportingRecord => 1

def citationKey (c : ExceptionEventCitation) : ℕ ×ₗ String ×ₗ ℕ ×ₗ ℕ :=
  toLex (c.seq.toNat, toLex (c.source, toLex (c.templateId.toNat, c.role.asU8)))

/-- Whether two renderings of the group, one before the other, satisfy `shared`. -/
def anyPair (shared : RenderEpisode → RenderEpisode → Bool) : List RenderEpisode → Bool
  | [] => false
  | left :: rest => rest.any (shared left) || anyPair shared rest

def recordsOf (kind : ExceptionRenderingKind) (renderings : List RenderEpisode) : Nat :=
  ((renderings.filter fun r => r.kind = kind).map fun r => r.citations.length).sum

def reasonCodes (renderings : List RenderEpisode) (confidence : ExceptionCorrelationConfidence) :
    List String :=
  [match confidence with
    | .strong => "strong_correlation"
    | .moderate => "moderate_correlation"
    | .uncorrelated => "uncorrelated_standalone"] ++
  (if 1 < renderings.length then ["multi_rendering"] else []) ++
  (if anyPair (fun a b => agree (signalsFromRendering a).requestId
      (signalsFromRendering b).requestId) renderings then ["shared_request_anchor"] else []) ++
  (if anyPair (fun a b => agree (signalsFromRendering a).traceId
      (signalsFromRendering b).traceId) renderings then ["shared_trace_anchor"] else []) ++
  (if anyPair (fun a b => a.wallTime && b.wallTime && agree (signalsFromRendering a).thread
      (signalsFromRendering b).thread) renderings then ["shared_thread_wall_window"] else []) ++
  (if confidence = .moderate then ["unkeyed_wall_window"] else [])

def relationTypes : ExceptionCorrelationConfidence → List String
  | .strong => ["SupportsSameExecution"]
  | .moderate => ["CandidateSupportsSameExecution"]
  | .uncorrelated => []

/-- A rendering that refused records counts once, however many it refused. -/
def occurrenceFromRenderings (renderings : List RenderEpisode)
    (confidence : ExceptionCorrelationConfidence) : ExceptionOccurrenceSummary :=
  let citations := sortBy citationKey
    (firstSeen (fun c => c) [] (renderings.flatMap (·.citations)))
  { episodeId := episodeId citations
    firstSeq := (citations.head?.map (·.seq)).getD 0
    lastSeq := (citations.getLast?.map (·.seq)).getD 0
    rawRecordCount := citations.length
    applicationRecordCount := recordsOf .applicationFullStack renderings
    stderrRecordCount := recordsOf .separatelyWrappedRecords renderings
    renderingCount := renderings.length
    duplicateRendering := 1 < renderings.length
    correlationConfidence := if 1 < renderings.length then confidence else .uncorrelated
    reasonCodes := reasonCodes renderings confidence
    conflictCodes := []
    relationTypes := relationTypes confidence
    renderingKinds := firstSeen (fun k => k) [] (renderings.map (·.kind))
    citations := citations
    citationsComplete := renderings.all (·.complete)
    omittedCitationCount := renderings.countP (!·.complete)
    ambiguityCount := 0 }

/-! ## Refusals of a rendering that stands alone -/

section

variable (renderings : List RenderEpisode)

/-- Other renderings with the signature of the `index`-th. -/
def sameSignature (index : Nat) (r : RenderEpisode) : List RenderEpisode :=
  (renderings.zipIdx.filter fun other => other.2 ≠ index && other.1.signature = r.signature).map
    Prod.fst

def viable (r other : RenderEpisode) : Bool :=
  !executionSignalsConflict (signalsFromRendering r) (signalsFromRendering other) &&
    graphsStructurallyRelated (graphOf r) (graphOf other) &&
    (matchingGlobalAnchor (signalsFromRendering r) (signalsFromRendering other) ||
      (duplicateEvidence r other).isSome)

def annotateUnresolved (o : ExceptionOccurrenceSummary) : ExceptionOccurrenceSummary :=
  if o.renderingCount ≠ 1 then o
  else
    match o.citations with
    | [] => o
    | first :: _ =>
      match renderings.zipIdx.find? fun r =>
          r.1.citations.head?.any fun c => c.seq = first.seq && c.source = first.source with
      | none => o
      | some (r, index) =>
        let others := sameSignature renderings index r
        let conflicts := sortBy id (others.flatMap fun other => executionConflictCodes
          (signalsFromRendering r) (signalsFromRendering other)).dedup
        let viableNeighbours := others.countP (viable r)
        let o :=
          if conflicts = [] then o
          else { o with
            reasonCodes := o.reasonCodes ++ ["correlation_refused_on_conflict"]
            conflictCodes := conflicts }
        if 1 < viableNeighbours then
          { o with
            reasonCodes := o.reasonCodes ++ ["ambiguous_candidate_component"]
            ambiguityCount := viableNeighbours }
        else o

/-- The summary of a group, with its signature. -/
def summarize (g : CorrelationGroup renderings) : Chars × ExceptionOccurrenceSummary :=
  (g.signature,
    annotateUnresolved renderings (occurrenceFromRenderings (episodesOf g.members) g.confidence))

def occurrenceKey (o : Chars × ExceptionOccurrenceSummary) : ℕ ×ₗ Chars ×ₗ ℕ :=
  toLex (o.2.firstSeq.toNat, toLex (o.1, o.2.lastSeq.toNat))

structure MatchingMeta where
  unpairedRenderings : Nat
  ambiguous : Bool
  ambiguousComponents : Nat
  applicationPropagationChains : Nat
  correlationComplete : Bool
  deriving DecidableEq

def correlateRenderings : List (Chars × ExceptionOccurrenceSummary) × MatchingMeta :=
  let c := correlate renderings
  let occurrences := sortBy occurrenceKey (c.groups.map (summarize renderings))
  let hasModerate := occurrences.any fun o =>
    o.2.duplicateRendering && o.2.correlationConfidence = .moderate
  (occurrences,
    { unpairedRenderings := c.unpaired
      ambiguous := c.ambiguous
      ambiguousComponents := c.ambiguousComponents
      applicationPropagationChains := c.chains
      correlationComplete := !c.ambiguous && c.unpaired = 0 && !hasModerate })

end

end ContextDesk.LogAnalysis.Exceptions

/-!
## The analysis of a list of events

`analyzeBounded` sorts the events, derives and correlates the renderings, counts what the
correlation covers, groups the occurrences into families and says what is complete.
`analyzeBoundedEvents` is the analysis without an inventory of templates. Cancellation is left out,
as is the text that repeats the fields of the report. A count is a sum over at most `renderCap`
renderings of `recordCap` records each, so it is a natural number.
-/

namespace ContextDesk.LogAnalysis.Exceptions

open Lib Lib.ByteIndex

def familyCap : Nat := 64

def eventScanCap : Nat := 50000

def rowWalkCap : Nat := 250000

/-! ## Candidates and identities -/

def isExceptionCandidate (event : ExplorerEvent) : Bool :=
  let message := event.message.toList
  let env := parseExceptionEnvelope message
  let payload := env.structuralPayload
  (exceptionSignature payload).isSome || (exceptionSignature message).isSome ||
    hasStackFrame message || hasStackFrame payload ||
    ((Str.lines payload).any fun line =>
      isStackContinuation (Text.trim line) || isWrapperScaffoldLine (Text.trim line) ||
        looksLikeExceptionHeaderLine (Text.trim line)) ||
    (env.isStderrStream && (isStackContinuation (Text.trim payload) ||
      looksLikeExceptionHeaderLine (Text.trim payload) ||
      isWrapperScaffoldLine (Text.trim payload)))

abbrev Identity := UInt64 × String

def ExceptionEventCitation.identity (c : ExceptionEventCitation) : Identity := (c.seq, c.source)

def eventIdentity (e : ExplorerEvent) : Identity := (e.seq, e.source)

inductive StructuralInventoryMode where
  | unavailable
  | templateIndependent
  deriving DecidableEq

structure MatchingSeed where
  inventoryMode : StructuralInventoryMode := .unavailable
  independentExpected : Finset Identity := ∅
  messageCandidateIds : Finset Identity := ∅
  unknownSuspiciousIdentityCount : Nat := 0
  inventoryCapped : Bool := false

def MatchingSeed.eligible (seed : MatchingSeed) : Finset Identity :=
  match seed.inventoryMode with
  | .templateIndependent => seed.independentExpected
  | .unavailable => ∅

def MatchingSeed.candidates (seed : MatchingSeed) (ordered : List ExplorerEvent) :
    Finset Identity :=
  let fromEvents := ((ordered.filter isExceptionCandidate).map eventIdentity).toFinset
  match seed.inventoryMode with
  | .templateIndependent =>
    if seed.messageCandidateIds = ∅ then fromEvents else seed.messageCandidateIds
  | .unavailable => fromEvents

def eventKey (e : ExplorerEvent) : ℕ ×ₗ String ×ₗ Int :=
  toLex (e.seq.toNat, toLex (e.source, e.ts))

/-! ## Counts -/

structure ExceptionCountRatio where
  numerator : Nat
  denominator : Nat
  quotient : Nat
  remainder : Nat
  deriving DecidableEq

def ExceptionCountRatio.new (numerator denominator : Nat) : ExceptionCountRatio :=
  if denominator = 0 then ⟨numerator, 0, 0, 0⟩
  else ⟨numerator, denominator, numerator / denominator, numerator % denominator⟩

structure ExceptionAmplificationMetrics where
  rawExceptionRecords : Nat
  applicationExceptionRecords : Nat
  stderrExceptionRecords : Nat
  physicalRenderings : Nat
  semanticOccurrences : Nat
  rawRecordsPerOccurrence : ExceptionCountRatio
  stderrRecordsPerOccurrence : ExceptionCountRatio
  applicationRecordsPerOccurrence : ExceptionCountRatio
  renderingsPerOccurrence : ExceptionCountRatio
  deriving DecidableEq

def ExceptionAmplificationMetrics.fromCounts (raw application stderr renderings occurrences : Nat) :
    ExceptionAmplificationMetrics where
  rawExceptionRecords := raw
  applicationExceptionRecords := application
  stderrExceptionRecords := stderr
  physicalRenderings := renderings
  semanticOccurrences := occurrences
  rawRecordsPerOccurrence := .new raw occurrences
  stderrRecordsPerOccurrence := .new stderr occurrences
  applicationRecordsPerOccurrence := .new application occurrences
  renderingsPerOccurrence := .new renderings occurrences

/-- Application stacks, leads and supporting records among citations. -/
def roleCounts (citations : List ExceptionEventCitation) : Nat × Nat × Nat :=
  (citations.countP fun c => c.renderingKind = .applicationFullStack,
    citations.countP fun c => c.role = .renderingLead,
    citations.countP fun c => c.role = .supportingRecord)

/-- What the citations of renderings and of occurrences cover of an inventory. -/
structure Coverage where
  eligibleCount : Nat
  candidateCount : Nat
  candidateMisses : Nat
  renderingIdentities : Nat
  renderingMisses : Nat
  covered : Nat
  missing : Nat
  unexpected : Nat
  duplicates : Nat
  expectedRoles : Nat × Nat × Nat
  coveredRoles : Nat × Nat × Nat
  deriving DecidableEq

def coverage (eligible candidates : Finset Identity)
    (rendered cited : List ExceptionEventCitation) : Coverage :=
  let first := firstSeen ExceptionEventCitation.identity [] cited
  let renderingUnion := (rendered.map ExceptionEventCitation.identity).toFinset
  let citeUnion := (cited.map ExceptionEventCitation.identity).toFinset
  { eligibleCount := eligible.card
    candidateCount := candidates.card
    candidateMisses := (eligible.filter (· ∉ candidates)).card
    renderingIdentities := renderingUnion.card
    renderingMisses := (eligible.filter (· ∉ renderingUnion)).card
    covered := citeUnion.card
    missing := (eligible.filter (· ∉ citeUnion)).card
    unexpected := (citeUnion.filter (· ∉ eligible)).card
    duplicates := cited.length - first.length
    expectedRoles := roleCounts rendered
    coveredRoles := roleCounts first }

/-! ## Families -/

structure ExceptionFamilySummary where
  signature : Chars
  rawRecordCount : Nat
  applicationRecordCount : Nat
  stderrRecordCount : Nat
  renderingEpisodeCount : Nat
  occurrenceCount : Nat
  duplicateRenderingOccurrenceCount : Nat
  uncertainOccurrenceCount : Nat
  amplification : ExceptionAmplificationMetrics
  occurrences : List ExceptionOccurrenceSummary
  deriving DecidableEq

def ExceptionOccurrenceSummary.isStrong (o : ExceptionOccurrenceSummary) : Bool :=
  o.duplicateRendering && o.correlationConfidence = .strong

def ExceptionOccurrenceSummary.isUncertain (o : ExceptionOccurrenceSummary) : Bool :=
  !o.citationsComplete || (o.duplicateRendering && o.correlationConfidence ≠ .strong)

def family (signature : Chars) (occs : List ExceptionOccurrenceSummary) : ExceptionFamilySummary :=
  let raw := (occs.map (·.rawRecordCount)).sum
  let application := (occs.map (·.applicationRecordCount)).sum
  let stderr := (occs.map (·.stderrRecordCount)).sum
  let renderings := (occs.map (·.renderingCount)).sum
  { signature := signature
    rawRecordCount := raw
    applicationRecordCount := application
    stderrRecordCount := stderr
    renderingEpisodeCount := renderings
    occurrenceCount := occs.length
    duplicateRenderingOccurrenceCount := occs.countP (·.duplicateRendering)
    uncertainOccurrenceCount := occs.countP (·.isUncertain)
    amplification := .fromCounts raw application stderr renderings occs.length
    occurrences := occs }

/-- The occurrences under each signature, by ascending signature. -/
def grouped (occurrences : List (Chars × ExceptionOccurrenceSummary)) :
    List (Chars × List ExceptionOccurrenceSummary) :=
  (sortBy id (occurrences.map Prod.fst).dedup).map fun signature =>
    (signature, (occurrences.filter fun o => o.1 = signature).map Prod.snd)

/-- Strong occurrences, occurrences and records from the most to the least, then the signature. -/
def familyKey (f : ExceptionFamilySummary) : ℕᵒᵈ ×ₗ ℕᵒᵈ ×ₗ ℕᵒᵈ ×ₗ Chars :=
  toLex (OrderDual.toDual (f.occurrences.countP (·.isStrong)),
    toLex (OrderDual.toDual f.occurrenceCount,
      toLex (OrderDual.toDual f.rawRecordCount, f.signature)))

def familiesOf (occurrences : List (Chars × ExceptionOccurrenceSummary)) :
    List ExceptionFamilySummary :=
  (sortBy familyKey ((grouped occurrences).map fun g => family g.1 g.2)).take familyCap

/-! ## The report -/

structure ExceptionEpisodeAnalysis where
  rowsWalked : Nat
  rowWalkCap : Nat
  eventsAvailable : Nat
  eventsScanned : Nat
  eventScanCap : Nat
  rawExceptionRecordCount : Nat
  applicationExceptionRecordCount : Nat
  stderrExceptionRecordCount : Nat
  renderingEpisodeCount : Nat
  unpairedRenderingCount : Nat
  occurrenceCount : Nat
  duplicateRenderingOccurrenceCount : Nat
  familyCountAvailable : Nat
  familyCap : Nat
  amplification : ExceptionAmplificationMetrics
  isPartial : Bool
  countsComplete : Bool
  uncertain : Bool
  conflictingOccurrenceCount : Nat
  ambiguousOccurrenceCount : Nat
  matchingAmbiguous : Bool
  families : List ExceptionFamilySummary
  scanComplete : Bool
  structuralCoverageComplete : Bool
  renderingsComplete : Bool
  correlationComplete : Bool
  citationsComplete : Bool
  semanticCountsCertified : Bool
  strongDerivedEpisodeCount : Nat
  standaloneRenderingCount : Nat
  unresolvedRenderingCount : Nat
  ambiguousComponentCount : Nat
  applicationPropagationChainCount : Nat
  coverage : Coverage
  unknownSuspiciousStructuralIdentityCount : Nat
  structuralInventoryCapped : Bool
  deriving DecidableEq

/-- The report on renderings and the occurrences built from them. -/
def report (eventsAvailable eventsScanned : Nat) (seed : MatchingSeed)
    (candidates : Finset Identity) (renderings : List RenderEpisode) (renderPartial : Bool) :
    ExceptionEpisodeAnalysis :=
  let (occurrences, matching) := correlateRenderings renderings
  let application := recordsOf .applicationFullStack renderings
  let stderr := recordsOf .separatelyWrappedRecords renderings
  let raw := application + stderr
  let cov := coverage seed.eligible candidates (renderings.flatMap (·.citations))
    (occurrences.flatMap (·.2.citations))
  let strong := occurrences.countP (·.2.isStrong)
  let families := familiesOf occurrences
  let familyCountAvailable := (grouped occurrences).length
  let scanPartial := eventsScanned < eventsAvailable
  let isPartial := scanPartial || renderPartial || Exceptions.familyCap < familyCountAvailable
  let countsComplete := !scanPartial && !renderPartial && !isPartial
  let citationsComplete := families.all fun f => f.occurrences.all (·.citationsComplete)
  let correlationComplete := matching.correlationComplete && !matching.ambiguous
  let inventoryAvailable := seed.inventoryMode = .templateIndependent
  let structuralCoverage := inventoryAvailable && !seed.inventoryCapped &&
    seed.unknownSuspiciousIdentityCount = 0 && cov.candidateMisses = 0 && cov.renderingMisses = 0 &&
    cov.missing = 0 && cov.unexpected = 0 && cov.duplicates = 0 &&
    cov.covered = cov.eligibleCount && 0 < cov.eligibleCount && cov.expectedRoles = cov.coveredRoles
  let structuralCoverageComplete := countsComplete && citationsComplete && structuralCoverage &&
    matching.unpairedRenderings = 0
  { rowsWalked := eventsScanned
    rowWalkCap := Exceptions.rowWalkCap
    eventsAvailable := eventsAvailable
    eventsScanned := eventsScanned
    eventScanCap := Exceptions.eventScanCap
    rawExceptionRecordCount := raw
    applicationExceptionRecordCount := application
    stderrExceptionRecordCount := stderr
    renderingEpisodeCount := renderings.length
    unpairedRenderingCount := matching.unpairedRenderings
    occurrenceCount := occurrences.length
    duplicateRenderingOccurrenceCount := occurrences.countP (·.2.duplicateRendering)
    familyCountAvailable := familyCountAvailable
    familyCap := Exceptions.familyCap
    amplification := .fromCounts raw application stderr renderings.length occurrences.length
    isPartial := isPartial
    countsComplete := countsComplete
    uncertain := occurrences.any (·.2.isUncertain)
    conflictingOccurrenceCount := occurrences.countP (·.2.conflictCodes ≠ [])
    ambiguousOccurrenceCount := occurrences.countP (0 < ·.2.ambiguityCount)
    matchingAmbiguous := matching.ambiguous
    families := families
    scanComplete := !scanPartial
    structuralCoverageComplete := structuralCoverageComplete
    renderingsComplete := !renderPartial
    correlationComplete := correlationComplete
    citationsComplete := citationsComplete
    semanticCountsCertified := structuralCoverageComplete && correlationComplete &&
      citationsComplete && !isPartial && 0 < strong && matching.unpairedRenderings = 0 &&
      cov.missing = 0 && cov.unexpected = 0 && cov.duplicates = 0 && cov.candidateMisses = 0 &&
      cov.renderingMisses = 0 && seed.unknownSuspiciousIdentityCount = 0 &&
      !seed.inventoryCapped && inventoryAvailable
    strongDerivedEpisodeCount := strong
    standaloneRenderingCount := matching.unpairedRenderings
    unresolvedRenderingCount := matching.unpairedRenderings
    ambiguousComponentCount := matching.ambiguousComponents
    applicationPropagationChainCount := matching.applicationPropagationChains
    coverage := cov
    unknownSuspiciousStructuralIdentityCount := seed.unknownSuspiciousIdentityCount
    structuralInventoryCapped := seed.inventoryCapped }

def analyzeBounded (eventsAvailable : Nat) (events : List ExplorerEvent) (seed : MatchingSeed) :
    Exec ExceptionEpisodeAnalysis := do
  let ordered := sortBy eventKey events
  let (renderings, renderPartial) ← deriveRenderEpisodes ordered
  return report eventsAvailable events.length seed (seed.candidates ordered) renderings
    renderPartial

end ContextDesk.LogAnalysis.Exceptions
