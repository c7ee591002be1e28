import ContextDesk.Lib.Publish
import ContextDesk.LogAnalysis.Suppression

/-!
# Preview, activation and lifecycle of suppression rules

The three calls that change the suppression document of a corpus. Each one takes the mutation
guard, loads the document, checks the expected revision and the audit reserve, and publishes a
document of the next revision with one more audit entry. What a call reads from outside the
document (templates, events, clock, new UUIDs, the file system) are its `SuppressionSurroundings`;
a template or event reading is numbered, because a call reads twice.
-/

namespace ContextDesk.LogAnalysis

open Lib

structure SuppressionSurroundings where
  /-- The mutation guard cannot be taken. -/
  guard : Option String
  /-- The corpus root is not a directory. -/
  root : Option String
  /-- The sidecar cannot be opened, read or parsed. -/
  read : Option String
  /-- The template fingerprints, by reading. -/
  templates : Nat → UInt64 → Option String
  /-- The event revision, by reading. -/
  eventRevision : Nat → Nat
  /-- The event database fails. -/
  connection : Option String
  events : List EventRow
  now : Int
  token : String
  ruleId : String
  auditId : String
  publication : PublishFaults

/-- The same surroundings, where nothing fails after the publication. -/
def SuppressionSurroundings.withoutLateFault (env : SuppressionSurroundings) :
    SuppressionSurroundings :=
  { env with publication := { env.publication with after := none } }

/-! ## Reading and writing -/

def clearEphemeralResolution (document : SuppressionDocument) : SuppressionDocument :=
  { document with
    resolvedTemplateRevision := none
    rules := document.rules.map fun rule => { rule with resolution := none } }

def loadDocumentFromRoot (lib : SuppressionLibrary) (root read : Option String)
    (corpusId : String) (sidecar : Option SuppressionDocument) :
    CoreResult SuppressionDocument := do
  refuse root
  validateBoundedText "corpus id" corpusId maxCorpusIdBytes
  refuse read
  match sidecar with
  | none => pure (emptyDocument corpusId)
  | some stored => do
    ensure (¬ lib.documentBytes stored > maxSidecarBytes)
      s!"suppression sidecar exceeds {maxSidecarBytes} bytes"
    let document := clearEphemeralResolution stored
    validateDocument lib document corpusId
    pure document

/-- What `write_document` checks of the document before it touches the sidecar. -/
def checkPersisted (lib : SuppressionLibrary) (root : Option String)
    (persisted : SuppressionDocument) : CoreResult Unit := do
  refuse root
  validateDocument lib persisted persisted.corpusId
  ensure (¬ lib.documentBytes persisted > maxSidecarBytes)
    s!"suppression sidecar exceeds {maxSidecarBytes} bytes"

/-- A call that ends in `write_document`. -/
def writing {α : Type} (lib : SuppressionLibrary) (env : SuppressionSurroundings)
    (sidecar : Option SuppressionDocument) (body : CoreResult (α × SuppressionDocument)) :
    CoreResult α × Option SuppressionDocument :=
  publishing (checkPersisted lib env.root) env.publication sidecar do
    let (result, document) ← body
    pure (result, clearEphemeralResolution document)

def requireRevision (document : SuppressionDocument) (expectedRevision : Nat) : CoreResult Unit :=
  ensure (document.revision = expectedRevision)
    s!"stale suppression revision: expected {expectedRevision}, current {document.revision}"

def nextSuppressionRevision (current : Nat) : CoreResult Nat := do
  ensure (current + 1 ≤ u64Max) "suppression revision overflow"
  pure (current + 1)

/-- The fingerprints that fit the bound, of the identities asked for. -/
def templateFingerprints (templates : UInt64 → Option String) (maxBytes : Nat) (id : UInt64) :
    Option String :=
  (templates id).filter fun hash => hash.utf8ByteSize ≤ maxBytes

def authoritativeTemplatePredicate (templates : UInt64 → Option String) (templateId : UInt64) :
    CoreResult SuppressionTemplatePredicate := do
  ensure (¬ (templateId = 0 ∨ templateId.toNat > i64Max))
    "suppression template id is outside the supported range"
  let fingerprint ← require (templateFingerprints templates maxTemplateFingerprintBytes templateId)
    s!"suppression template {templateId} is missing from the corpus"
  let predicate : SuppressionTemplatePredicate :=
    { templateId := templateId, templateFingerprint := fingerprint }
  validatePredicate predicate
  pure predicate

/-! ## Preview -/

structure ComputedPreviewFacts where
  eventRevision : Nat
  matchingEventCount : Nat
  incrementalEventCount : Nat
  corpusEventCount : Nat
  levelCounts : List SuppressionLevelCount
  sourceCount : Nat
  timeSpan : SuppressionTimeSpan
  representatives : List SuppressionRepresentativeEvent
  deriving DecidableEq

/-- The characters that fit into a number of bytes. -/
def takeBytes : Nat → List Char → List Char
  | _, [] => []
  | budget, c :: rest => if c.utf8Size > budget then [] else c :: takeBytes (budget - c.utf8Size) rest

def truncateUtf8Bytes (value : String) (maxBytes : Nat) : String :=
  if value.utf8ByteSize ≤ maxBytes then value else String.ofList (takeBytes maxBytes value.toList)

def representativeOf (lib : SuppressionLibrary) (r : EventRow) :
    CoreResult SuppressionRepresentativeEvent := do
  let seq ← require (tryU64 r.seq) "suppression representative has negative sequence"
  let redaction := lib.redactCandidate r.message
  pure
    { seq := seq
      source := r.source
      timestamp := r.ts
      timeQuality := classifyActiveTimestampBasis (r.activeTimestampBasis.getD .legacyUnknown)
      level := r.level
      redactedExcerpt :=
        if redaction.blocked then "[credential-dominant event redacted]"
        else truncateUtf8Bytes redaction.text maxRedactedExcerptBytes }

/-- `GROUP BY level ORDER BY LOWER(level), level`. -/
def levelCountsOf (lib : SuppressionLibrary) (rows : List EventRow) : List SuppressionLevelCount :=
  (((rows.map EventRow.level).dedup).insertionSort fun a b =>
      lib.lower a < lib.lower b ∨ (lib.lower a = lib.lower b ∧ a ≤ b)).map fun level =>
    { level := level, count := rows.countP fun r => r.level = level }

def computePreviewFacts (lib : SuppressionLibrary) (env : SuppressionSurroundings)
    (predicate : SuppressionTemplatePredicate) (rules : List SuppressionRule) :
    CoreResult ComputedPreviewFacts := do
  ensure (predicate.templateId.toNat ≤ i64Max) "suppression template id exceeds i64"
  let alreadyHidden := rules.any fun rule => rule.state = .enabled ∧ rule.predicate = predicate
  refuse env.connection
  let rows := env.events.filter fun r => r.templateId = (predicate.templateId.toNat : Int)
  ensure (rows.length ≠ 0)
    s!"suppression template {predicate.templateId} has no authoritative events"
  let start ← require (extreme true (rows.map EventRow.ts))
    "suppression preview has no minimum timestamp"
  let stop ← require (extreme false (rows.map EventRow.ts))
    "suppression preview has no maximum timestamp"
  let representatives ← collect (representativeOf lib)
    ((rows.insertionSort fun a b => rowLe true a b).take maxSuppressionRepresentatives)
  ensure (env.eventRevision 1 = env.eventRevision 0)
    "corpus changed while computing suppression preview"
  let facts : ComputedPreviewFacts :=
    { eventRevision := env.eventRevision 0
      matchingEventCount := rows.length
      incrementalEventCount := if alreadyHidden then 0 else rows.length
      corpusEventCount := env.events.length
      levelCounts := levelCountsOf lib rows
      sourceCount := (rows.map EventRow.source).dedup.length
      timeSpan := { start := start, stop := stop }
      representatives := representatives }
  let again ← authoritativeTemplatePredicate (env.templates 1) predicate.templateId
  ensure (again = predicate) "suppression template changed while computing preview"
  validatePreviewFacts facts.matchingEventCount facts.incrementalEventCount facts.corpusEventCount
    facts.levelCounts facts.sourceCount facts.timeSpan facts.representatives
  pure facts

def previewFromRoot (lib : SuppressionLibrary) (env : SuppressionSurroundings) (corpusId : String)
    (expectedRevision : Nat) (input : NewSuppressionPreview)
    (sidecar : Option SuppressionDocument) :
    CoreResult SuppressionPreview × Option SuppressionDocument :=
  writing lib env sidecar do
    validatePreviewInput input
    refuse env.guard
    let document ← loadDocumentFromRoot lib env.root env.read corpusId sidecar
    requireRevision document expectedRevision
    let reserve ← reversalAuditReserve document.rules
    ensureAuditCapacityFor document 1 reserve
    let predicate ← authoritativeTemplatePredicate (env.templates 0) input.templateId
    let facts ← computePreviewFacts lib env predicate document.rules
    let revision ← nextSuppressionRevision document.revision
    let preview : SuppressionPreview :=
      { token := env.token
        corpusId := corpusId
        eventRevision := facts.eventRevision
        ruleRevision := revision
        name := input.name
        rationale := input.rationale
        predicate := predicate
        origin := input.origin
        matchingEventCount := facts.matchingEventCount
        incrementalEventCount := facts.incrementalEventCount
        corpusEventCount := facts.corpusEventCount
        levelCounts := facts.levelCounts
        sourceCount := facts.sourceCount
        timeSpan := facts.timeSpan
        representatives := facts.representatives
        createdAt := env.now }
    let entry : SuppressionAuditEntry :=
      { id := env.auditId
        revision := revision
        action := .previewed
        ruleId := none
        previewToken := some preview.token
        createdAt := env.now }
    pure (preview,
      { document with
        previews := [preview], revision := revision, audit := document.audit ++ [entry] })

/-! ## Activation -/

structure SuppressionMutationResult where
  revision : Nat
  rule : SuppressionRule
  deriving DecidableEq

def activateFromRoot (lib : SuppressionLibrary) (env : SuppressionSurroundings) (corpusId : String)
    (expectedRevision : Nat) (previewToken : String) (sidecar : Option SuppressionDocument) :
    CoreResult SuppressionMutationResult × Option SuppressionDocument :=
  writing lib env sidecar do
    validateUuidV7 lib "suppression preview token" previewToken
    refuse env.guard
    let document ← loadDocumentFromRoot lib env.root env.read corpusId sidecar
    requireRevision document expectedRevision
    let reserve ← reversalAuditReserve document.rules
    ensure (reserve + 2 ≤ usizeMax) "suppression audit reserve overflow"
    ensureAuditCapacityFor document 1 (reserve + 2)
    let preview ← require (document.previews.find? fun p => p.token == previewToken)
      "suppression preview token is missing or stale"
    let current ← authoritativeTemplatePredicate (env.templates 0) preview.predicate.templateId
    ensure (¬ (preview.corpusId ≠ corpusId ∨ preview.ruleRevision ≠ document.revision ∨
        preview.eventRevision ≠ env.eventRevision 0 ∨ preview.predicate ≠ current))
      "suppression preview is stale; compute a new preview"
    ensure (preview.origin = .human)
      "detector/model proposals cannot activate suppression; a person must author and confirm a new preview"
    ensure (¬ document.rules.any fun rule =>
        rule.state ≠ .removed ∧ rule.predicate.templateId = preview.predicate.templateId)
      "an active or disabled rule already owns this exact template predicate"
    let revision ← nextSuppressionRevision document.revision
    let rule : SuppressionRule :=
      { id := env.ruleId
        name := preview.name
        rationale := preview.rationale
        predicate := preview.predicate
        origin := preview.origin
        state := .enabled
        createdAt := env.now
        updatedAt := env.now
        resolution := none }
    let entry : SuppressionAuditEntry :=
      { id := env.auditId
        revision := revision
        action := .activated
        ruleId := some rule.id
        previewToken := some previewToken
        createdAt := env.now }
    refuse env.connection
    ensure (preview.eventRevision = env.eventRevision 1)
      "suppression preview became stale before activation publication"
    let again ← authoritativeTemplatePredicate (env.templates 1) rule.predicate.templateId
    ensure (again = rule.predicate)
      "suppression preview became stale before activation publication"
    pure ({ revision := revision, rule := rule },
      { document with
        rules := document.rules ++ [rule], previews := [], revision := revision
        audit := document.audit ++ [entry] })

/-! ## Lifecycle -/

inductive SuppressionRuleMutation where
  | disable
  | reenable
  | remove
  deriving DecidableEq

/-- The next state of a rule, and the audited action. -/
def transition : SuppressionRuleState → SuppressionRuleMutation →
    CoreResult (SuppressionRuleState × SuppressionAuditAction)
  | .enabled, .disable => .ok (.disabled, .disabled)
  | .disabled, .reenable => .ok (.enabled, .reenabled)
  | .enabled, .remove | .disabled, .remove => .ok (.removed, .removed)
  | .removed, _ => .error "removed suppression rules are immutable tombstones"
  | _, _ => .error "suppression rule mutation does not match its current state"

/-- A rule is enabled again only while its exact template is the same. -/
def ensureReenableCurrent (templates : UInt64 → Option String) (rule : SuppressionRule)
    (mutation : SuppressionRuleMutation) : CoreResult Unit :=
  if mutation = .reenable then do
    let current ← authoritativeTemplatePredicate templates rule.predicate.templateId
    ensure (current = rule.predicate)
      "suppression rule is stale; its exact template changed while disabled"
  else pure ()

/-- The rule at an index in its next state, with the entry that records it. -/
def mutatedDocument (env : SuppressionSurroundings) (document : SuppressionDocument)
    (index : Fin document.rules.length) (state : SuppressionRuleState)
    (action : SuppressionAuditAction) (revision : Nat) :
    SuppressionMutationResult × SuppressionDocument :=
  let rule := { document.rules.get index with state := state, updatedAt := env.now }
  let entry : SuppressionAuditEntry :=
    { id := env.auditId
      revision := revision
      action := action
      ruleId := some rule.id
      previewToken := none
      createdAt := env.now }
  ({ revision := revision, rule := rule },
    { document with
      rules := document.rules.set index rule, previews := [], revision := revision
      audit := document.audit ++ [entry] })

def mutateRuleFromRoot (lib : SuppressionLibrary) (env : SuppressionSurroundings)
    (corpusId : String) (expectedRevision : Nat) (ruleId : String)
    (mutation : SuppressionRuleMutation) (sidecar : Option SuppressionDocument) :
    CoreResult SuppressionMutationResult × Option SuppressionDocument :=
  writing lib env sidecar do
    validateUuidV7 lib "suppression rule id" ruleId
    refuse env.guard
    let document ← loadDocumentFromRoot lib env.root env.read corpusId sidecar
    requireRevision document expectedRevision
    let index ← require (document.rules.findFinIdx? fun rule => rule.id == ruleId)
      s!"suppression rule not found: {ruleId}"
    let (state, action) ← transition (document.rules.get index).state mutation
    ensureReenableCurrent (env.templates 0) (document.rules.get index) mutation
    let nextStates := (document.rules.map SuppressionRule.state).set index state
    let reserve ← reversalAuditReserveStates nextStates
    ensureAuditCapacityFor document 1 reserve
    let revision ← nextSuppressionRevision document.revision
    pure (mutatedDocument env document index state action revision)

end ContextDesk.LogAnalysis
