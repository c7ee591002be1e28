import ContextDesk.Lib.Search
import ContextDesk.LogAnalysis.SuppressionValid

/-!
# The trusted suppression lens

`resolveRuleStatuses` resolves the rules of a document against the template identities of the
corpus, `enabledTemplateIdsForCorpus` are the templates that the resolved rules hide, and
`resolveLens` is the lens made of them: resolved, or unavailable with nothing to hide.
`applyLensToQuery` reduces the exclusions that a request asks for to those the lens authorizes.

A resolution reads the template revision and the identities several times while others change
them; `LensReadings` are the readings of one resolution.
-/

namespace ContextDesk.LogAnalysis

open Lib
open scoped Lib.WordOrder

/-- One attempt to read the identities: the revision before, the identities, the revision after. -/
structure TemplateAttempt where
  before : Nat
  templates : UInt64 → Option String
  after : Nat

structure LensReadings where
  /-- The corpus root is not a directory. -/
  root : Option String
  /-- The sidecar cannot be opened, read or parsed. -/
  read : Option String
  sidecar : Option SuppressionDocument
  attempt : Fin maxResolutionAttempts → TemplateAttempt
  /-- The template revision before the lens is applied. -/
  revisionBefore : Nat
  /-- The template revision after it. -/
  revisionAfter : Nat
  eventRevision : Nat

/-! ## Rule resolution -/

def SuppressionRule.isEnabled (rule : SuppressionRule) : Bool := rule.state = .enabled

def enabledTargeting (rules : List SuppressionRule) (templateId : UInt64) : Nat :=
  rules.countP fun rule => rule.isEnabled && rule.predicate.templateId == templateId

/-- The enabled rules with a valid predicate, whose templates are looked up. -/
def lookedUp (rules : List SuppressionRule) : List UInt64 :=
  (rules.filter fun rule => rule.isEnabled && (validatePredicate rule.predicate).isOk).map
    fun rule => rule.predicate.templateId

/-- The first attempt during which the template revision did not move. -/
def stableAttempt (attempts : List TemplateAttempt) : Option TemplateAttempt :=
  attempts.find? fun attempt => attempt.before == attempt.after

/-- A rule of the document against the fingerprints of the current templates. -/
def resolveRule (rules : List SuppressionRule) (fingerprints : UInt64 → Option String)
    (rule : SuppressionRule) : SuppressionRuleResolution :=
  match rule.state with
  | .disabled =>
    { kind := .inactive
      matchesNothing := true
      explanation := "Rule is disabled and matches nothing until a person re-enables it." }
  | .removed =>
    { kind := .inactive
      matchesNothing := true
      explanation := "Rule is an immutable tombstone retained for audit history." }
  | .enabled =>
    match validatePredicate rule.predicate with
    | .error error =>
      { kind := .invalidPredicate
        matchesNothing := true
        explanation := s!"Invalid predicate — matches nothing: {error}. Disable or remove the rule after review." }
    | .ok _ =>
      if enabledTargeting rules rule.predicate.templateId > 1 then
        { kind := .conflictingPredicate
          matchesNothing := true
          explanation := s!"Conflicting predicate — matches nothing: multiple enabled rules target template {rule.predicate.templateId}. Disable or remove conflicting rules before applying suppression." }
      else
        match fingerprints rule.predicate.templateId with
        | none =>
          { kind := .staleTargetMissing
            matchesNothing := true
            explanation := s!"Stale — matches nothing: template {rule.predicate.templateId} no longer exists. The rule and audit history were preserved; disable or remove it after review." }
        | some current =>
          if current ≠ rule.predicate.templateFingerprint then
            { kind := .staleFingerprintChanged
              matchesNothing := true
              explanation := s!"Stale — matches nothing: template {rule.predicate.templateId} now has a different fingerprint. The rule was not remapped by numeric id; review the corpus revision." }
          else
            { kind := .matchesCurrent
              matchesNothing := false
              explanation := "Exact template id and fingerprint match the current corpus revision." }

def resolveRuleStatuses (attempts : List TemplateAttempt) (document : SuppressionDocument) :
    CoreResult SuppressionDocument := do
  let attempt ← require (stableAttempt attempts)
    s!"suppression_policy_resolution_busy: template metadata changed during {maxResolutionAttempts} resolution attempts; retry"
  let fingerprints := fun id =>
    if id ∈ lookedUp document.rules then
      templateFingerprints attempt.templates maxTemplateFingerprintBytes id
    else none
  pure
    { document with
      rules := document.rules.map fun rule =>
        { rule with resolution := some (resolveRule document.rules fingerprints rule) }
      resolvedTemplateRevision := some attempt.after }

def loadSuppressionDocument (lib : SuppressionLibrary) (corpusId : String) (r : LensReadings) :
    CoreResult SuppressionDocument := do
  let document ← loadDocumentFromRoot lib r.root r.read corpusId r.sidecar
  resolveRuleStatuses (List.ofFn r.attempt) document

/-! ## The lens of a document -/

/-- The templates of the enabled rules that match, in the order of the rules. -/
def matchingTemplates : List SuppressionRule → CoreResult (List UInt64)
  | [] => pure []
  | rule :: rest =>
    if !rule.isEnabled then matchingTemplates rest
    else do
      let resolution ← require rule.resolution
        s!"suppression_rule_unresolved: enabled rule {rule.id} has not been resolved against the current corpus; reload the suppression policy before applying it"
      match resolution.kind with
      | .matchesCurrent => do
        let ids ← matchingTemplates rest
        pure (rule.predicate.templateId :: ids)
      | .staleTargetMissing | .staleFingerprintChanged | .invalidPredicate
      | .conflictingPredicate => matchingTemplates rest
      | .inactive =>
        .error s!"suppression_rule_resolution_invalid: enabled rule {rule.id} was resolved as inactive; reload the suppression policy"

def enabledTemplateIds (document : SuppressionDocument) : CoreResult (List UInt64) := do
  let ids ← matchingTemplates document.rules
  let templateIds := sortDedup ids
  ensure (¬ templateIds.length > maxExcludedTemplateIds)
    s!"active suppression lens has {templateIds.length} exact templates; query limit is {maxExcludedTemplateIds}"
  pure templateIds

def enabledTemplateIdsForCorpus (document : SuppressionDocument) (before after : Nat) :
    CoreResult (List UInt64) := do
  let resolved ← require document.resolvedTemplateRevision
    "suppression_policy_unresolved: reload the suppression policy before applying it"
  ensure (before = resolved)
    s!"suppression_policy_snapshot_stale: resolved template revision {resolved}, current revision {before}; reload before applying the lens"
  let templateIds ← enabledTemplateIds document
  ensure (after = resolved)
    s!"suppression_policy_snapshot_stale: template revision changed from {resolved} to {after} while applying the lens; retry"
  pure templateIds

inductive SuppressionLensState where
  | resolved
  | unavailable
  deriving DecidableEq

structure TrustedSuppressionLens where
  corpusId : String
  state : SuppressionLensState
  reason : Option String
  templateIds : List UInt64
  policyRevision : Option Nat
  eventRevision : Nat
  templateAnalysisRevision : Nat
  deriving DecidableEq

def TrustedSuppressionLens.authorizes (lens : TrustedSuppressionLens) (templateId : UInt64) :
    Bool :=
  binarySearch lens.templateIds templateId

/-- The document and the templates it authorizes hiding. -/
def resolvedTemplates (lib : SuppressionLibrary) (corpusId : String) (r : LensReadings) :
    CoreResult (SuppressionDocument × List UInt64) := do
  let document ← loadSuppressionDocument lib corpusId r
  ensure (document.corpusId = corpusId)
    "suppression sidecar belongs to a different corpus; no events were hidden"
  let templateIds ← enabledTemplateIdsForCorpus document r.revisionBefore r.revisionAfter
  pure (document, templateIds)

def resolveLens (lib : SuppressionLibrary) (corpusId : String) (r : LensReadings)
    (templateAnalysisRevision : Nat) : TrustedSuppressionLens :=
  match resolvedTemplates lib corpusId r with
  | .error reason =>
    { corpusId := corpusId
      state := .unavailable
      reason := some reason
      templateIds := []
      policyRevision := none
      eventRevision := r.eventRevision
      templateAnalysisRevision := templateAnalysisRevision }
  | .ok (document, templateIds) =>
    { corpusId := corpusId
      state := .resolved
      reason := none
      templateIds := templateIds
      policyRevision := some document.revision
      eventRevision := r.eventRevision
      templateAnalysisRevision := templateAnalysisRevision }

/-! ## Requests -/

structure SuppressionLensApplication where
  requested : Nat
  effective : Nat
  dropped : Nat
  state : SuppressionLensState
  deriving DecidableEq

def applyLensToQuery (lens : TrustedSuppressionLens) (query : EventQuery) :
    EventQuery × SuppressionLensApplication :=
  let requested := sortDedup query.excludedTemplateIds
  let effective := requested.filter lens.authorizes
  ({ query with excludedTemplateIds := effective },
    { requested := requested.length
      effective := effective.length
      dropped := requested.length - effective.length
      state := lens.state })

end ContextDesk.LogAnalysis
