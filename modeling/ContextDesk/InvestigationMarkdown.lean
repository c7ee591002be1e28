import ContextDesk.InvestigationAnswer
import ContextDesk.Lib.Search

/-!
# The Markdown of an investigation answer

`renderAnswerMarkdown` writes an envelope out for a reader. Every dynamic value goes through
`literalDisplayText`, which leaves one line of harmless characters, and stands in a code span.
`isAlphanumeric` is the Unicode property by which an excerpt is cut into words.
-/

namespace ContextDesk

open Lib Lib.Text

/-! ## Literal text -/

def BIDI_FORMATTING_CONTROLS : List Char :=
  ['\u061c', '\u200e', '\u200f', '\u202a', '\u202b', '\u202c', '\u202d', '\u202e', '\u2066',
    '\u2067', '\u2068', '\u2069']

def isBidiFormattingControl (c : Char) : Bool := BIDI_FORMATTING_CONTROLS.contains c

def isLineBoundary (c : Char) : Bool :=
  c = '\n' || c = '\r' || c = '\t' || c = '\x0b' || c = '\x0c' || c = '\u0085' || c = '\u2028' ||
    c = '\u2029'

def backtick : Char := '\x60'

/-- The text so far, and whether a space is due before the next character. -/
structure LiteralText where
  out : List Char := []
  pendingSpace : Bool := false

def LiteralText.push (s : LiteralText) (c : Char) : LiteralText :=
  if isLineBoundary c || c = ' ' then { s with pendingSpace := !s.out.isEmpty }
  else if isControl c || c = '\x7f' || BIDI_FORMATTING_CONTROLS.contains c then s
  else { out := (if s.pendingSpace then s.out ++ [' '] else s.out) ++
           [if c = backtick then '\'' else c],
         pendingSpace := false }

def literalDisplayText (raw : List Char) : List Char := (raw.foldl LiteralText.push {}).out

def EMPTY_VALUE_PLACEHOLDER : String := "(empty)"

def literalSpan (raw : List Char) : List Char :=
  let normalized := literalDisplayText raw
  if normalized = [] then EMPTY_VALUE_PLACEHOLDER.toList
  else backtick :: (normalized ++ [backtick])

/-! ## Labels -/

def claimKindLabel : ClaimKind → String
  | .observation => "Observations"
  | .symptom => "Symptoms"
  | .causalCandidate => "Causal candidates"
  | .initiatingCause => "Initiating causes"
  | .competingExplanation => "Competing explanations"
  | .missingEvidence => "Missing evidence"

def CLAIM_KIND_RENDER_ORDER : List ClaimKind :=
  [.observation, .symptom, .causalCandidate, .initiatingCause, .competingExplanation,
    .missingEvidence]

def claimStatusMarker : ClaimStatus → Option String
  | .supported => none
  | .unsupported => some "**[unsupported]**"
  | .withheld => some "**[withheld]**"

def excerptTokens (isAlphanumeric : Char → Bool) (l : List Char) : List (List Char) :=
  ((asciiLower l).splitOnP fun c => !isAlphanumeric c).filter fun token => token ≠ []

def excerptAddsInformation (isAlphanumeric : Char → Bool) (content alreadyShown : List Char) :
    Bool :=
  let shownTokens := excerptTokens isAlphanumeric alreadyShown
  (excerptTokens isAlphanumeric content).any fun token => token ∉ shownTokens

/-! ## The document -/

/-- The map of the citations by their evidence ids: the last one of an id stays. -/
def citationOf (citations : List CanonicalCitationV1) (id : String) :
    Option CanonicalCitationV1 :=
  citations.reverse.find? fun citation => citation.evidenceId = id

/-- The ids of a claim that have a citation, in order. -/
def citedIds (citations : List CanonicalCitationV1) (claim : InvestigationClaimV1) :
    List String :=
  sortDedup (claim.evidenceIds.filter fun id => (citationOf citations id).isSome)

def renderClaim (citations : List CanonicalCitationV1) (claim : InvestigationClaimV1) :
    List Char :=
  let cited := citedIds citations claim
  "- ".toList ++
    (match claimStatusMarker claim.status with
      | some marker => marker.toList ++ " ".toList
      | none => []) ++
    literalSpan claim.text.toList ++
    (if cited ≠ [] then
      " — cites ".toList ++ ", ".toList.intercalate (cited.map fun id => literalSpan id.toList)
    else if claim.evidenceIds ≠ [] then " — no host citation available".toList
    else []) ++ "\n".toList

def claimsOfKind (candidate : InvestigationCandidateV1) (kind : ClaimKind) :
    List InvestigationClaimV1 :=
  (candidate.claims.filter fun claim => claim.claimKind = kind).insertionSort
    fun a b => a.claimId ≤ b.claimId

def renderKind (citations : List CanonicalCitationV1) (candidate : InvestigationCandidateV1)
    (kind : ClaimKind) : List Char :=
  let claims := claimsOfKind candidate kind
  if claims = [] then []
  else "\n**".toList ++ (claimKindLabel kind).toList ++ "**\n\n".toList ++
    claims.flatMap (renderClaim citations)

def renderCandidate (citations : List CanonicalCitationV1)
    (candidate : InvestigationCandidateV1) : List Char :=
  let renderedAny := CLAIM_KIND_RENDER_ORDER.any fun kind => claimsOfKind candidate kind ≠ []
  "\n## Candidate ".toList ++ literalSpan candidate.candidateId.toList ++ "\n".toList ++
    CLAIM_KIND_RENDER_ORDER.flatMap (renderKind citations candidate) ++
    if renderedAny then [] else "\nNo claims were reported for this candidate.\n".toList

def sortedCandidates (answer : InvestigationAnswerV1) : List InvestigationCandidateV1 :=
  answer.candidates.insertionSort fun a b => a.candidateId ≤ b.candidateId

def displayedEvidence (answer : InvestigationAnswerV1) : List String :=
  sortDedup ((sortedCandidates answer).flatMap fun candidate =>
    CLAIM_KIND_RENDER_ORDER.flatMap fun kind =>
      (claimsOfKind candidate kind).flatMap (citedIds answer.canonicalCitations))

def citationLine (citation : CanonicalCitationV1) : List Char :=
  "- ".toList ++ literalSpan citation.evidenceId.toList ++ " — ".toList ++
    literalSpan citation.sourceLabel.toList ++ " · ".toList ++ literalSpan citation.locator.toList

/-- The excerpt says something that the line before it does not. -/
def excerptShown (isAlphanumeric : Char → Bool) (citation : CanonicalCitationV1) : Bool :=
  let excerpt := literalDisplayText citation.content.toList
  !excerpt.isEmpty && excerptAddsInformation isAlphanumeric excerpt (citationLine citation)

def outsideSnapshot (binding : AnswerBindingV1) (citation : CanonicalCitationV1) : Bool :=
  citation.corpusId ≠ binding.corpusId || citation.revision ≠ binding.revision

def renderCitation (isAlphanumeric : Char → Bool) (binding : AnswerBindingV1)
    (citation : CanonicalCitationV1) : List Char :=
  citationLine citation ++
    (if outsideSnapshot binding citation then " · outside this turn's evidence snapshot".toList
    else []) ++
    (if excerptShown isAlphanumeric citation then
      "\n  - ".toList ++ literalSpan (literalDisplayText citation.content.toList)
    else []) ++ "\n".toList

def decimal (n : UInt64) : List Char := Nat.toDigits 10 n.toNat

def renderHead (envelope : AnswerEnvelopeV1) : List Char :=
  "# Investigation answer\n\n".toList ++ "- Root cause established: ".toList ++
    (if envelope.answer.rootCauseEstablished then "yes" else "no").toList ++ "\n".toList ++
    "- Confidence: not rated by this contract\n".toList ++
    "- Evidence snapshot: corpus ".toList ++ literalSpan envelope.binding.corpusId.toList ++
    " · events ".toList ++ decimal envelope.binding.revision.eventRevision ++
    " · template analysis ".toList ++ decimal envelope.binding.revision.templateAnalysisRevision ++
    " · suppression ".toList ++ decimal envelope.binding.revision.suppressionRevision ++
    "\n".toList

/-- The citations that are shown, in the order of their ids. -/
def displayedCitations (answer : InvestigationAnswerV1) : List CanonicalCitationV1 :=
  (displayedEvidence answer).filterMap (citationOf answer.canonicalCitations)

def renderAnswerMarkdown (isAlphanumeric : Char → Bool) (envelope : AnswerEnvelopeV1) :
    List Char :=
  let answer := envelope.answer
  renderHead envelope ++
    (if sortedCandidates answer = [] then "\nNo candidate was reported for this turn.\n".toList
    else []) ++
    (sortedCandidates answer).flatMap (renderCandidate answer.canonicalCitations) ++
    if displayedEvidence answer ≠ [] then
      "\n## Evidence\n\n".toList ++
        (displayedCitations answer).flatMap (renderCitation isAlphanumeric envelope.binding)
    else []

end ContextDesk
