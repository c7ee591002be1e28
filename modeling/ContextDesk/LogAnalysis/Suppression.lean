import ContextDesk.LogAnalysis.Query

/-!
# Suppression documents

A corpus keeps its exact-template suppression rules in one versioned document: the rules with
their lifecycle, at most one current preview, and an append-only audit. `validateDocument` is the
check that guards every read and every write; `reversalAuditReserve` are the audit entries kept
free so that every live rule can still be disabled and removed.

The UUID library, redaction and JSON text are parameters (`SuppressionLibrary`).
-/

namespace ContextDesk.LogAnalysis

open Lib

def suppressionSchemaVersion : Nat := 1

def maxSuppressionRules : Nat := 1024

def maxSuppressionAuditEntries : Nat := 4096

def maxSuppressionPreviews : Nat := 16

def maxSuppressionRepresentatives : Nat := 3

def maxSuppressionLevelBuckets : Nat := 32

def maxSidecarBytes : Nat := 8 * 1024 * 1024

def maxCorpusIdBytes : Nat := 128

def maxRuleNameBytes : Nat := 128

def maxRuleRationaleBytes : Nat := 2048

def maxTemplateFingerprintBytes : Nat := 256

def maxSourceIdentityBytes : Nat := 1024

def maxLevelBytes : Nat := 64

def maxRedactedExcerptBytes : Nat := 1024

def maxResolutionAttempts : Nat := 3

def usizeMax : Nat := 2 ^ 64 - 1

inductive SuppressionRuleOrigin where
  | human
  | detectorProposal
  | modelProposal
  deriving DecidableEq

inductive SuppressionRuleState where
  | enabled
  | disabled
  | removed
  deriving DecidableEq

structure SuppressionTemplatePredicate where
  templateId : UInt64
  templateFingerprint : String
  deriving DecidableEq

inductive SuppressionRuleResolutionKind where
  | matchesCurrent
  | staleTargetMissing
  | staleFingerprintChanged
  | invalidPredicate
  | conflictingPredicate
  | inactive
  deriving DecidableEq

structure SuppressionRuleResolution where
  kind : SuppressionRuleResolutionKind
  matchesNothing : Bool
  explanation : String
  deriving DecidableEq

structure SuppressionLevelCount where
  level : String
  count : Nat
  deriving DecidableEq

structure SuppressionTimeSpan where
  start : Int
  stop : Int
  deriving DecidableEq

structure SuppressionRepresentativeEvent where
  seq : UInt64
  source : String
  timestamp : Int
  timeQuality : TimeQuality
  level : String
  redactedExcerpt : String
  deriving DecidableEq

structure NewSuppressionPreview where
  name : String
  rationale : String
  templateId : UInt64
  origin : SuppressionRuleOrigin
  deriving DecidableEq

structure SuppressionPreview where
  token : String
  corpusId : String
  eventRevision : Nat
  ruleRevision : Nat
  name : String
  rationale : String
  predicate : SuppressionTemplatePredicate
  origin : SuppressionRuleOrigin
  matchingEventCount : Nat
  incrementalEventCount : Nat
  corpusEventCount : Nat
  levelCounts : List SuppressionLevelCount
  sourceCount : Nat
  timeSpan : SuppressionTimeSpan
  representatives : List SuppressionRepresentativeEvent
  createdAt : Int
  deriving DecidableEq

/-- A durable rule. The resolution is computed by a load and never stored. -/
structure SuppressionRule where
  id : String
  name : String
  rationale : String
  predicate : SuppressionTemplatePredicate
  origin : SuppressionRuleOrigin
  state : SuppressionRuleState
  createdAt : Int
  updatedAt : Int
  resolution : Option SuppressionRuleResolution
  deriving DecidableEq

inductive SuppressionAuditAction where
  | previewed
  | activated
  | disabled
  | reenabled
  | removed
  deriving DecidableEq

structure SuppressionAuditEntry where
  id : String
  revision : Nat
  action : SuppressionAuditAction
  ruleId : Option String
  previewToken : Option String
  createdAt : Int
  deriving DecidableEq

structure SuppressionDocument where
  schemaVersion : Nat
  corpusId : String
  revision : Nat
  rules : List SuppressionRule
  previews : List SuppressionPreview
  audit : List SuppressionAuditEntry
  resolvedTemplateRevision : Option Nat
  deriving DecidableEq

def emptyDocument (corpusId : String) : SuppressionDocument where
  schemaVersion := suppressionSchemaVersion
  corpusId := corpusId
  revision := 0
  rules := []
  previews := []
  audit := []
  resolvedTemplateRevision := none

/-- What a redaction pass leaves of a message. -/
structure RedactionResult where
  text : String
  blocked : Bool
  deriving DecidableEq

/-- The libraries that suppression calls: UUID parsing, redaction, the lower case of the database
and the length of the JSON text of a document. -/
structure SuppressionLibrary where
  isUuidV7 : String → Bool
  redactCandidate : String → RedactionResult
  lower : String → String
  documentBytes : SuppressionDocument → Nat

/-! ## Fields -/

def validateBoundedText (kind value : String) (maxBytes : Nat) : CoreResult Unit := do
  ensure (¬ (Text.trim value.toList = [] ∨ value.utf8ByteSize > maxBytes))
    s!"{kind} must contain 1..={maxBytes} nonblank UTF-8 bytes"
  ensure (¬ value.toList.any Text.isControl) s!"{kind} contains unsupported control characters"

def validateOptionalBoundedText (kind value : String) (maxBytes : Nat) : CoreResult Unit := do
  ensure (¬ value.utf8ByteSize > maxBytes) s!"{kind} exceeds {maxBytes} UTF-8 bytes"
  ensure (¬ value.toList.any fun c =>
      Text.isControl c && !(c == '\n' || c == '\r' || c == '\t'))
    s!"{kind} contains unsupported control characters"

def validateUuidV7 (lib : SuppressionLibrary) (kind value : String) : CoreResult Unit :=
  ensure (lib.isUuidV7 value) s!"{kind} must be a UUIDv7"

def validatePredicate (predicate : SuppressionTemplatePredicate) : CoreResult Unit := do
  ensure (¬ (predicate.templateId = 0 ∨ predicate.templateId.toNat > i64Max))
    "suppression template id must be within 1..=i64::MAX"
  validateBoundedText "suppression template fingerprint" predicate.templateFingerprint
    maxTemplateFingerprintBytes

def validateRuleMetadata (name rationale : String) : CoreResult Unit := do
  validateBoundedText "suppression rule name" name maxRuleNameBytes
  validateBoundedText "suppression rule rationale" rationale maxRuleRationaleBytes

def validateRuleFields (name rationale : String) (predicate : SuppressionTemplatePredicate) :
    CoreResult Unit := do
  validateRuleMetadata name rationale
  validatePredicate predicate

def validatePreviewInput (input : NewSuppressionPreview) : CoreResult Unit := do
  validateBoundedText "suppression rule name" input.name maxRuleNameBytes
  validateBoundedText "suppression rule rationale" input.rationale maxRuleRationaleBytes
  ensure (¬ (input.templateId = 0 ∨ input.templateId.toNat > i64Max))
    "suppression template id is outside the supported range"

/-- The parts between the characters that `sep` accepts. -/
def splitParts (sep : Char → Bool) (value : String) : List (List Char) :=
  value.toList.splitOnP sep

/-- An absolute path of a drive: a letter, a colon and a separator. -/
def windowsAbsolute : List UInt8 → Bool
  | drive :: colon :: separator :: _ =>
    ((65 ≤ drive && drive ≤ 90) || (97 ≤ drive && drive ≤ 122)) && colon == 58 &&
      (separator == 47 || separator == 92)
  | _ => false

def validateSourceIdentity (source : String) : CoreResult Unit := do
  validateBoundedText "suppression representative source" source maxSourceIdentityBytes
  ensure (¬ (source.toList.head?.any (fun c => c = '/' ∨ c = '\\') ∨
      windowsAbsolute (Text.bytes source.toList) ∨
      ['.', '.'] ∈ splitParts (fun c => c = '/' ∨ c = '\\') source ∨
      ['.', '.'] ∈ splitParts (fun c => c = '/') source))
    "suppression representative source must be a relative identity"

/-! ## Previews -/

/-- The level buckets, with the levels seen and the total so far. -/
def validateLevelCounts : List (List Char) → Nat → List SuppressionLevelCount → CoreResult Nat
  | _, total, [] => pure total
  | seen, total, bucket :: rest => do
    validateBoundedText "suppression level" bucket.level maxLevelBytes
    ensure (bucket.count ≠ 0) "suppression level counts must be positive"
    let level := Text.asciiLower bucket.level.toList
    ensure (level ∉ seen) "suppression level distribution repeats a level"
    ensure (total + bucket.count ≤ u64Max) "suppression level count overflow"
    validateLevelCounts (level :: seen) (total + bucket.count) rest

/-- The representatives, with the sequences seen so far. -/
def validateRepresentatives :
    List UInt64 → List SuppressionRepresentativeEvent → CoreResult Unit
  | _, [] => pure ()
  | seen, representative :: rest => do
    ensure (representative.seq ∉ seen) "suppression preview repeats a representative event"
    validateSourceIdentity representative.source
    validateBoundedText "suppression representative level" representative.level maxLevelBytes
    validateOptionalBoundedText "suppression redacted excerpt" representative.redactedExcerpt
      maxRedactedExcerptBytes
    validateRepresentatives (representative.seq :: seen) rest

def validatePreviewFacts (matchingEventCount incrementalEventCount corpusEventCount : Nat)
    (levelCounts : List SuppressionLevelCount) (sourceCount : Nat) (timeSpan : SuppressionTimeSpan)
    (representatives : List SuppressionRepresentativeEvent) : CoreResult Unit := do
  ensure (¬ (matchingEventCount = 0 ∨ matchingEventCount > corpusEventCount))
    "suppression preview matches must be within 1..=corpus event count"
  ensure (¬ incrementalEventCount > matchingEventCount)
    "suppression incremental count exceeds matching count"
  ensure (¬ (sourceCount = 0 ∨ sourceCount > matchingEventCount))
    "suppression source count must be within 1..=matching count"
  ensure (¬ timeSpan.start > timeSpan.stop) "suppression preview time span is reversed"
  ensure (¬ (levelCounts = [] ∨ levelCounts.length > maxSuppressionLevelBuckets))
    s!"suppression level distribution must contain 1..={maxSuppressionLevelBuckets} buckets"
  let levelTotal ← validateLevelCounts [] 0 levelCounts
  ensure (levelTotal = matchingEventCount)
    "suppression level distribution does not equal matching count"
  ensure (¬ (representatives = [] ∨ representatives.length > maxSuppressionRepresentatives))
    s!"suppression preview must contain 1..={maxSuppressionRepresentatives} representatives"
  validateRepresentatives [] representatives

def validatePreviewFields (preview : SuppressionPreview) : CoreResult Unit := do
  validateRuleFields preview.name preview.rationale preview.predicate
  validatePreviewFacts preview.matchingEventCount preview.incrementalEventCount
    preview.corpusEventCount preview.levelCounts preview.sourceCount preview.timeSpan
    preview.representatives

/-! ## The audit reserve -/

/-- The audit entries that a rule in this state still needs to be disabled and removed. -/
def SuppressionRuleState.reserve : SuppressionRuleState → Nat
  | enabled => 2
  | disabled => 1
  | removed => 0

def reversalAuditReserveStates (states : List SuppressionRuleState) : CoreResult Nat :=
  states.foldlM (fun reserve state => do
    ensure (reserve + state.reserve ≤ usizeMax) "suppression audit reserve overflow"
    pure (reserve + state.reserve)) 0

def reversalAuditReserve (rules : List SuppressionRule) : CoreResult Nat :=
  reversalAuditReserveStates (rules.map SuppressionRule.state)

def ensureAuditCapacityFor (document : SuppressionDocument)
    (entriesToAppend reversalReserveAfter : Nat) : CoreResult Unit := do
  let required := document.audit.length + entriesToAppend + reversalReserveAfter
  ensure (document.audit.length + entriesToAppend ≤ usizeMax ∧ required ≤ usizeMax)
    "suppression audit capacity overflow"
  ensure (¬ required > maxSuppressionAuditEntries)
    s!"suppression audit cannot publish this operation: {required} entries including lifecycle reserve exceeds {maxSuppressionAuditEntries}"

/-! ## Documents -/

def validateRules (lib : SuppressionLibrary) : List String → List SuppressionRule → CoreResult Unit
  | _, [] => pure ()
  | seen, rule :: rest => do
    validateUuidV7 lib "suppression rule id" rule.id
    ensure (rule.id ∉ seen) s!"suppression sidecar repeats rule id {rule.id}"
    validateRuleMetadata rule.name rule.rationale
    ensure (¬ rule.createdAt > rule.updatedAt)
      s!"suppression rule {rule.id} updated_at precedes created_at"
    ensure (¬ (rule.state = .enabled ∧ rule.origin ≠ .human))
      "enabled suppression rules must be human-authored"
    validateRules lib (rule.id :: seen) rest

/-- The previews, with the tokens seen so far. -/
def validatePreviews (lib : SuppressionLibrary) (corpusId : String) (revision : Nat) :
    List String → List SuppressionPreview → CoreResult Unit
  | _, [] => pure ()
  | seen, preview :: rest => do
    validateUuidV7 lib "suppression preview token" preview.token
    ensure (preview.token ∉ seen) s!"suppression sidecar repeats preview token {preview.token}"
    ensure (preview.corpusId = corpusId) "suppression preview belongs to another corpus"
    ensure (¬ (preview.ruleRevision = 0 ∨ preview.ruleRevision > revision))
      "suppression preview has an invalid rule revision"
    validatePreviewFields preview
    validatePreviews lib corpusId revision (preview.token :: seen) rest

/-- The audit, with the ids seen so far and the revision before. -/
def validateAudit (lib : SuppressionLibrary) (revision : Nat) :
    List String → Nat → List SuppressionAuditEntry → CoreResult Unit
  | _, _, [] => pure ()
  | seen, previous, entry :: rest => do
    validateUuidV7 lib "suppression audit id" entry.id
    ensure (entry.id ∉ seen) s!"suppression sidecar repeats audit id {entry.id}"
    ensure (¬ (entry.revision = 0 ∨ entry.revision ≤ previous ∨ entry.revision > revision))
      "suppression audit revisions must be strictly increasing and published"
    ensureAll (validateUuidV7 lib "suppression audit rule id") entry.ruleId.toList
    ensureAll (validateUuidV7 lib "suppression audit preview token") entry.previewToken.toList
    validateAudit lib revision (entry.id :: seen) entry.revision rest

def validateDocument (lib : SuppressionLibrary) (document : SuppressionDocument)
    (expectedCorpusId : String) : CoreResult Unit := do
  ensure (¬ document.schemaVersion > suppressionSchemaVersion)
    s!"suppression schema version {document.schemaVersion} is newer than supported version {suppressionSchemaVersion}"
  ensure (document.schemaVersion = suppressionSchemaVersion)
    s!"suppression schema version {document.schemaVersion} is unsupported"
  validateBoundedText "corpus id" document.corpusId maxCorpusIdBytes
  ensure (document.corpusId = expectedCorpusId)
    "suppression sidecar corpus id does not match its corpus"
  ensure (¬ document.rules.length > maxSuppressionRules)
    s!"suppression sidecar exceeds {maxSuppressionRules} rules"
  ensure (¬ document.previews.length > maxSuppressionPreviews)
    s!"suppression sidecar exceeds {maxSuppressionPreviews} previews"
  ensure (¬ document.audit.length > maxSuppressionAuditEntries)
    s!"suppression sidecar exceeds {maxSuppressionAuditEntries} audit entries"
  validateRules lib [] document.rules
  let reserve ← reversalAuditReserve document.rules
  ensureAuditCapacityFor document 0 reserve
  validatePreviews lib document.corpusId document.revision [] document.previews
  validateAudit lib document.revision [] 0 document.audit
  ensure (¬ (document.revision = 0 ∧
      (document.rules ≠ [] ∨ document.previews ≠ [] ∨ document.audit ≠ [])))
    "revision-zero suppression document must be empty"
  ensure (¬ (document.revision > 0 ∧
      document.audit.getLast?.all (fun entry => entry.revision ≠ document.revision)))
    "suppression document revision must match its latest audit entry"

end ContextDesk.LogAnalysis
