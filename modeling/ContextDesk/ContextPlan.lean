import ContextDesk.Lib.FirstSeen
import ContextDesk.Lib.Sorting
import ContextDesk.MemoryStore
import Mathlib.Algebra.Order.Ring.Rat
import Mathlib.Data.List.Dedup
import Mathlib.Data.Prod.Lex

/-!
# The context plan

`build_context_plan` lists what could go into a turn (the chat history, memories, attachments,
workspace hits, skills, connectors, the linked corpus, the viewport and the user's selection), sorts
it, marks repeated ids, and includes what the quotas of the families and the character budget admit.
`apply_model_relevance` then promotes candidates that a model ranked and demotes weak memories.

Scores are ordered values without the NaN, which a hit's score and the floor of the budget may be
(`none`). Open are the Unicode tables and the quotient of two counts as a score. Left out of the
plan are the list of forbidden side effects, which is fixed, and the flag that the developer view
was cut, which the rest of the plan determines.
-/

namespace ContextDesk.Planning

open Lib Lib.ByteIndex Memory

inductive RelevanceStrategy where
  | deterministicOnly | optionalModelRerank | multiStepBounded
  deriving DecidableEq

inductive ContextPlanApplication where
  | modelFacing | inventoryOnly
  deriving DecidableEq

inductive ContextSourceFamily where
  | conversationHistory | durableMemory | chatAttachment | workspaceSearch | pinnedSkill
  | optionalConnector | linkedLogEvidence | explorerViewport | userSelection
  deriving DecidableEq

def ContextSourceFamily.asStr : ContextSourceFamily → Text
  | .conversationHistory => "conversation_history".toList
  | .durableMemory => "durable_memory".toList
  | .chatAttachment => "chat_attachment".toList
  | .workspaceSearch => "workspace_search".toList
  | .pinnedSkill => "pinned_skill".toList
  | .optionalConnector => "optional_connector".toList
  | .linkedLogEvidence => "linked_log_evidence".toList
  | .explorerViewport => "explorer_viewport".toList
  | .userSelection => "user_selection".toList

def ContextSourceFamily.rank : ContextSourceFamily → Nat
  | .conversationHistory => 0
  | .durableMemory => 1
  | .chatAttachment => 2
  | .workspaceSearch => 3
  | .pinnedSkill => 4
  | .optionalConnector => 5
  | .linkedLogEvidence => 6
  | .explorerViewport => 7
  | .userSelection => 8

inductive CandidateDisposition where
  | included | excluded | deferred | truncated
  deriving DecidableEq

inductive ContextReasonCode where
  | includedByRank | includedByUserSelection | includedPinnedSkill | includedHistoryWindow
  | excludedLowScore | excludedEcho | excludedIrrelevant | truncatedByBudget | excludedDuplicate
  | deferredUnauthorized | deferredLinkedPolicy | excludedUnavailable | includedByModelRelevance
  | excludedByModelRelevance | relevanceFailedClosed | memoryKindEligible
  | other (reason : Text)
  deriving DecidableEq

inductive PrivacyClass where
  | metadata | redactedContent | userVisibleContent
  deriving DecidableEq

inductive DataScope where
  | conversation
  | logCorpus (corpusId : Text)
  deriving DecidableEq

structure ContextCandidate (S : Type) where
  id : Text
  family : ContextSourceFamily
  label : Text
  disposition : CandidateDisposition
  reasons : List ContextReasonCode
  estimatedChars : Nat
  privacy : PrivacyClass
  scope : DataScope
  memoryKind : Option Text
  snippet : Option Text
  score : Option S
  provenance : Text
  deriving DecidableEq

def maxPlanCandidates : Nat := 128

def maxUserSelectionChars : Nat := 2000

structure ContextPlan (S : Type) where
  sessionId : Text
  turnId : Text
  application : ContextPlanApplication
  strategy : RelevanceStrategy
  modelRelevanceUsed : Bool
  relevanceFailedClosed : Bool
  globalCharBudget : Nat
  includedChars : Nat
  candidatesDiscovered : Nat
  candidatesOmittedByCap : Nat
  candidates : List (ContextCandidate S)
  contextUsedSummary : Text
  deriving DecidableEq

variable {S : Type}

def included (candidates : List (ContextCandidate S)) : List (ContextCandidate S) :=
  candidates.filter fun c => c.disposition = .included

def ContextPlan.included (plan : ContextPlan S) : List (ContextCandidate S) :=
  Planning.included plan.candidates

structure ContextPlanBudget (S : Type) where
  globalChars : Nat
  maxMemory : Nat
  maxAttachments : Nat
  maxWorkspace : Nat
  maxSkills : Nat
  minLexical : Option S

structure MemoryHitSnapshot (S : Type) where
  id : Text
  kind : Kind
  title : Text
  snippet : Text
  score : Option S

structure MemoryRecordSnapshot where
  id : Text
  kind : Kind
  title : Text
  content : Text
  status : Status

structure AttachmentSnapshot where
  relPath : Text
  name : Text
  size : Nat
  bodyPreview : Option Text

structure WorkspaceHitSnapshot (S : Type) where
  path : Text
  snippet : Text
  score : Option S

structure SkillSnapshot where
  id : Text
  name : Text
  description : Text

structure ConnectorSlotSnapshot where
  name : Text
  authorized : Bool

structure ContextInventorySnapshot (S : Type) where
  sessionId : Text := []
  turnId : Text := []
  userText : Text := []
  historyText : Text := []
  historyMessageCount : Nat := 0
  historyKeep : Nat := 0
  historyCompacted : Bool := false
  memoryHits : List (MemoryHitSnapshot S) := []
  memoryRecords : List MemoryRecordSnapshot := []
  attachments : List AttachmentSnapshot := []
  workspaceHits : List (WorkspaceHitSnapshot S) := []
  pinnedSkills : List SkillSnapshot := []
  optionalConnectors : List ConnectorSlotSnapshot := []
  linkedCorpusId : Option Text := none
  explorerViewport : Option Text := none
  userSelection : Option Text := none
  linkedTurn : Bool := false

/-- What is open of texts and scores, and the scores that the source names. -/
structure Scoring (S : Type) where
  toLowercase : Text → Text
  isAlphanumeric : Char → Bool
  /-- Two counts as floating-point numbers, divided. -/
  quotient : Nat → Nat → S
  zero : S
  one : S
  /-- `0.15`. -/
  lowScore : S
  /-- `0.2`. -/
  demoteBelow : S

/-- ASCII texts, and the quotient without its rounding. -/
def asciiScoring : Scoring ℚ where
  toLowercase := List.map Char.toLower
  isAlphanumeric := Char.isAlphanum
  quotient a b := a / b
  zero := 0
  one := 1
  lowScore := 15 / 100
  demoteBelow := 1 / 5

/-- `ContextPlanBudget::default`. -/
def defaultBudget : ContextPlanBudget ℚ where
  globalChars := 4000
  maxMemory := 5
  maxAttachments := 4
  maxWorkspace := 6
  maxSkills := 2
  minLexical := some (5 / 100)

/-! ## Scores -/

/-- The set of the tokens of at least two bytes. -/
def tokenize (scoring : Scoring S) (text : Text) : List Text :=
  (((scoring.toLowercase text).splitOnP fun c =>
    !scoring.isAlphanumeric c && c ≠ '-' && c ≠ '_').filter fun t => 2 ≤ byteLen t).dedup

def lexicalScore (scoring : Scoring S) (query : List Text) (doc : Text) : S :=
  if query = [] then scoring.zero
  else
    let docTokens := tokenize scoring doc
    if docTokens = [] then scoring.zero
    else
      let hit := query.countP fun t => t ∈ docTokens || decide (t <:+: scoring.toLowercase doc)
      scoring.quotient hit query.length

/-! ## Candidates that are always of one score -/

def historyCandidate (scoring : Scoring S) (snap : ContextInventorySnapshot S) :
    Option (ContextCandidate S) :=
  if 0 < snap.historyMessageCount then
    some
      { id := "history:window".toList
        family := .conversationHistory
        label := "chat history (".toList ++ (toString snap.historyMessageCount).toList ++
          " msgs, keep=".toList ++ (toString snap.historyKeep).toList ++ ")".toList
        disposition := .included
        reasons := [.includedHistoryWindow]
        estimatedChars := max (min snap.historyText.length 2000) 64
        privacy := .userVisibleContent
        scope := .conversation
        memoryKind := none
        snippet := none
        score := some scoring.one
        provenance :=
          if snap.historyCompacted then "sessions::prepare_model_context compact+keep".toList
          else "sessions::context window".toList }
  else none

def skillCandidate (scoring : Scoring S) (sk : SkillSnapshot) : ContextCandidate S where
  id := "skill:".toList ++ sk.id
  family := .pinnedSkill
  label := sk.name
  disposition := .included
  reasons := [.includedPinnedSkill]
  estimatedChars := sk.description.length + 200
  privacy := .metadata
  scope := .conversation
  memoryKind := none
  snippet := some (sk.description.take 100)
  score := some scoring.one
  provenance := "pinned_skill:".toList ++ sk.id

def connectorCandidate (conn : ConnectorSlotSnapshot) : ContextCandidate S where
  id := "connector:".toList ++ conn.name
  family := .optionalConnector
  label := conn.name
  -- authorized or not: a connector is never probed
  disposition := .deferred
  reasons := [.deferredUnauthorized]
  estimatedChars := 0
  privacy := .metadata
  scope := .conversation
  memoryKind := none
  snippet := none
  score := none
  provenance := "connector_slot_no_probe".toList

def corpusCandidate (snap : ContextInventorySnapshot S) (corpus : Text) : ContextCandidate S where
  id := "corpus:".toList ++ corpus
  family := .linkedLogEvidence
  label := "linked corpus ".toList ++ corpus
  disposition := if snap.linkedTurn then .included else .deferred
  reasons := [if snap.linkedTurn then .includedByRank else .deferredLinkedPolicy]
  estimatedChars := if snap.linkedTurn then 1500 else 0
  privacy := .userVisibleContent
  scope := .logCorpus corpus
  memoryKind := none
  snippet := none
  score := none
  provenance := "log_explorer_bind".toList

def viewportCandidate (scoring : Scoring S) (snap : ContextInventorySnapshot S) (vp : Text) :
    ContextCandidate S where
  id := "explorer:viewport".toList
  family := .explorerViewport
  label := "explorer viewport".toList
  disposition := .included
  reasons := [.includedByUserSelection]
  estimatedChars := min vp.length 2000
  privacy := .userVisibleContent
  scope := (snap.linkedCorpusId.map DataScope.logCorpus).getD .conversation
  memoryKind := none
  snippet := some (vp.take 80)
  score := some scoring.one
  provenance := "explorer_viewport_snapshot".toList

def selectionCandidate (scoring : Scoring S) (sel : Text) : ContextCandidate S where
  id := "user:selection".toList
  family := .userSelection
  label := "user selection".toList
  disposition := .included
  reasons := [.includedByUserSelection]
  estimatedChars := min sel.length 2000
  privacy := .userVisibleContent
  scope := .conversation
  memoryKind := none
  snippet := some (sel.take maxUserSelectionChars)
  score := some scoring.one
  provenance := "client_selection".toList

/-! ## Selection -/

def ContextCandidate.markKindEligible (c : ContextCandidate S) : ContextCandidate S :=
  if .memoryKindEligible ∈ c.reasons then c
  else { c with reasons := c.reasons ++ [.memoryKindEligible] }

def ContextCandidate.asDuplicate (c : ContextCandidate S) : ContextCandidate S :=
  { c with disposition := .excluded, reasons := [.excludedDuplicate] }

def ContextCandidate.asTruncated (c : ContextCandidate S) : ContextCandidate S :=
  { c with disposition := .truncated, reasons := .truncatedByBudget :: c.reasons }

def ContextPlanBudget.quota (budget : ContextPlanBudget S) : ContextSourceFamily → Nat
  | .durableMemory => budget.maxMemory
  | .chatAttachment => budget.maxAttachments
  | .workspaceSearch => budget.maxWorkspace
  | .pinnedSkill => budget.maxSkills
  | .conversationHistory => 1
  | _ => 8

/-- With the number of candidates taken of each family and the characters used so far. -/
def applyQuotasAndBudget (budget : ContextPlanBudget S) (counts : ContextSourceFamily → Nat)
    (usedChars : Nat) : List (ContextCandidate S) → List (ContextCandidate S)
  | [] => []
  | c :: rest =>
    if c.disposition ≠ .included then c :: applyQuotasAndBudget budget counts usedChars rest
    else if budget.quota c.family ≤ counts c.family then
      c.asTruncated :: applyQuotasAndBudget budget counts usedChars rest
    else if budget.globalChars < usedChars + c.estimatedChars ∧
        c.family ≠ .conversationHistory then
      c.asTruncated :: applyQuotasAndBudget budget counts usedChars rest
    else
      c :: applyQuotasAndBudget budget
        (Function.update counts c.family (counts c.family + 1)) (usedChars + c.estimatedChars) rest

/-- The order in which the cap keeps candidates. -/
def CandidateDisposition.rank : CandidateDisposition → Nat
  | .included => 0
  | .deferred => 1
  | .truncated => 2
  | .excluded => 3

def capCandidates (selected : List (ContextCandidate S)) : List (ContextCandidate S) :=
  if maxPlanCandidates < selected.length then
    (sortByKey (fun c => c.disposition.rank) selected).take maxPlanCandidates
  else selected

def charsOf (candidates : List (ContextCandidate S)) : Nat :=
  (candidates.map (·.estimatedChars)).sum

def buildContextUsedSummary (candidates : List (ContextCandidate S)) : Text :=
  let parts := ((included candidates).take 8).map fun c =>
    c.family.asStr ++ ((c.memoryKind.map fun k => '/' :: k).getD []) ++ ':' :: c.label
  if parts = [] then "none".toList else "; ".toList.intercalate parts

/-! ## Candidates with a score -/

variable [LinearOrder S]

/-- `f32::max`, which ignores a NaN. -/
def maxScore (score : Option S) (lex : S) : S :=
  match score with
  | none => lex
  | some score => max score lex

/-- `score < floor`, which a NaN makes false. -/
def below (score : S) (floor : Option S) : Bool := floor.any fun f => score < f

/-- `score >= floor`, which a NaN makes false. -/
def reaches (score : S) (floor : Option S) : Bool := floor.any fun f => f ≤ score

def normalizeMemoryId (id : Text) : Text :=
  if "memory:".toList.isPrefixOf id then id else "memory:".toList ++ id

/-- The disposition of a memory and the reason for it. -/
def memoryVerdict (scoring : Scoring S) (title snippet : Text) (score : S)
    (queryTokens : List Text) (minLexical : Option S) (historyText : Text) :
    CandidateDisposition × ContextReasonCode :=
  let historyL := scoring.toLowercase historyText
  let titleL := scoring.toLowercase title
  let snipL := scoring.toLowercase snippet
  let echo := (titleL ≠ [] && decide (titleL <:+: historyL)) ||
    (24 < byteLen snipL && decide (snipL <:+: historyL))
  if echo then (.excluded, .excludedEcho)
  else if below score minLexical &&
      below (lexicalScore scoring queryTokens (title ++ ' ' :: snippet)) minLexical then
    (.excluded, .excludedIrrelevant)
  else if score < scoring.lowScore then (.excluded, .excludedLowScore)
  else (.included, .includedByRank)

def memoryCandidate (scoring : Scoring S) (id : Text) (kind : Kind) (title snippet : Text)
    (score : S) (queryTokens : List Text) (minLexical : Option S) (historyText : Text) :
    ContextCandidate S :=
  let verdict := memoryVerdict scoring title snippet score queryTokens minLexical historyText
  { id
    family := .durableMemory
    label := if title = [] then kind.asStr else title
    disposition := verdict.1
    reasons := [.memoryKindEligible, verdict.2]
    estimatedChars := min snippet.length 400 + byteLen title + 32
    privacy := .userVisibleContent
    scope := .conversation
    memoryKind := some kind.asStr
    snippet := some (snippet.take 120)
    score := some score
    provenance := "durable_memory:".toList ++ kind.asStr }

def hitCandidate (scoring : Scoring S) (budget : ContextPlanBudget S)
    (snap : ContextInventorySnapshot S) (hit : MemoryHitSnapshot S) : ContextCandidate S :=
  let queryTokens := tokenize scoring snap.userText
  let lex := lexicalScore scoring queryTokens (hit.title ++ ' ' :: hit.snippet)
  memoryCandidate scoring (normalizeMemoryId hit.id) hit.kind hit.title hit.snippet
    (maxScore hit.score lex) queryTokens budget.minLexical snap.historyText

def recordCandidate (scoring : Scoring S) (budget : ContextPlanBudget S)
    (snap : ContextInventorySnapshot S) (rec : MemoryRecordSnapshot) : ContextCandidate S :=
  let queryTokens := tokenize scoring snap.userText
  let snippet := rec.content.take 160
  let lex := lexicalScore scoring queryTokens (rec.title ++ ' ' :: snippet)
  memoryCandidate scoring (normalizeMemoryId rec.id) rec.kind rec.title snippet lex queryTokens
    budget.minLexical snap.historyText

def attachmentCandidate (scoring : Scoring S) (budget : ContextPlanBudget S)
    (snap : ContextInventorySnapshot S) (att : AttachmentSnapshot) : ContextCandidate S :=
  let queryTokens := tokenize scoring snap.userText
  let preview := att.bodyPreview.getD []
  let lex := lexicalScore scoring queryTokens
    (att.name ++ ' ' :: (att.relPath ++ ' ' :: preview))
  let relevant := reaches lex budget.minLexical ||
    queryTokens.any fun t => decide (t <:+: scoring.toLowercase att.name)
  { id := "attach:".toList ++ att.relPath
    family := .chatAttachment
    label := att.name
    disposition := if relevant then .included else .excluded
    reasons := [if relevant then .includedByRank else .excludedIrrelevant]
    estimatedChars := min att.size 2000 + min preview.length 200
    privacy := .userVisibleContent
    scope := .conversation
    memoryKind := none
    snippet := att.bodyPreview.map fun s => s.take 120
    score := some lex
    provenance := "session_context:".toList ++ att.relPath }

def workspaceCandidate (scoring : Scoring S) (budget : ContextPlanBudget S)
    (snap : ContextInventorySnapshot S) (hit : WorkspaceHitSnapshot S) : ContextCandidate S :=
  let queryTokens := tokenize scoring snap.userText
  let lex := lexicalScore scoring queryTokens (hit.path ++ ' ' :: hit.snippet)
  let score := maxScore hit.score lex
  let relevant := reaches score budget.minLexical
  { id := "workspace:".toList ++ hit.path
    family := .workspaceSearch
    label := hit.path
    disposition := if relevant then .included else .excluded
    reasons := [if relevant then .includedByRank else .excludedIrrelevant]
    estimatedChars := min hit.snippet.length 400 + byteLen hit.path
    privacy := .userVisibleContent
    scope := .conversation
    memoryKind := none
    snippet := some (hit.snippet.take 120)
    score := some score
    provenance := "workspace_index:".toList ++ hit.path }

/-! ## The inventory -/

/-- The ids of the memories so far and the candidates. -/
abbrev Inventory (S : Type) := List Text × List (ContextCandidate S)

def addHit (scoring : Scoring S) (budget : ContextPlanBudget S)
    (snap : ContextInventorySnapshot S) (inv : Inventory S) (hit : MemoryHitSnapshot S) :
    Inventory S :=
  let id := normalizeMemoryId hit.id
  if id ∈ inv.1 then inv
  else (id :: inv.1, inv.2 ++ [hitCandidate scoring budget snap hit])

def addRecord (scoring : Scoring S) (budget : ContextPlanBudget S)
    (snap : ContextInventorySnapshot S) (inv : Inventory S) (rec : MemoryRecordSnapshot) :
    Inventory S :=
  if rec.status ≠ .active then inv
  else
    let id := normalizeMemoryId rec.id
    if id ∈ inv.1 then
      (inv.1, updateFirst (fun c => c.id = id) ContextCandidate.markKindEligible inv.2)
    else (id :: inv.1, inv.2 ++ [recordCandidate scoring budget snap rec])

/-- All candidates, in the order of their discovery. -/
def inventory (scoring : Scoring S) (budget : ContextPlanBudget S)
    (snap : ContextInventorySnapshot S) : List (ContextCandidate S) :=
  let hits := snap.memoryHits.foldl (addHit scoring budget snap)
    ([], (historyCandidate scoring snap).toList)
  let memory := snap.memoryRecords.foldl (addRecord scoring budget snap) hits
  memory.2 ++ snap.attachments.map (attachmentCandidate scoring budget snap) ++
    snap.workspaceHits.map (workspaceCandidate scoring budget snap) ++
    snap.pinnedSkills.map (skillCandidate scoring) ++
    snap.optionalConnectors.map connectorCandidate ++
    (snap.linkedCorpusId.map (corpusCandidate snap)).toList ++
    (snap.explorerViewport.map (viewportCandidate scoring snap)).toList ++
    (snap.userSelection.map (selectionCandidate scoring)).toList

/-! ## The plan -/

/-- By family, then by falling score, then by id. -/
def sortKey (scoring : Scoring S) (c : ContextCandidate S) : ℕ ×ₗ Sᵒᵈ ×ₗ List Char :=
  toLex (c.family.rank, toLex (OrderDual.toDual (c.score.getD scoring.zero), c.id))

/-- The candidates after quotas and budget, before the cap. -/
def selection (scoring : Scoring S) (budget : ContextPlanBudget S)
    (snap : ContextInventorySnapshot S) : List (ContextCandidate S) :=
  let sorted := sortByKey (sortKey scoring) (inventory scoring budget snap)
  let deduped := markSeen (·.id) ContextCandidate.asDuplicate [] sorted
  applyQuotasAndBudget budget (fun _ => 0) 0 deduped

def buildContextPlan (scoring : Scoring S) (snap : ContextInventorySnapshot S)
    (budget : ContextPlanBudget S) (strategy : RelevanceStrategy) : ContextPlan S :=
  let discovered := selection scoring budget snap
  let selected := capCandidates discovered
  { sessionId := snap.sessionId
    turnId := snap.turnId
    application := if snap.linkedTurn then .inventoryOnly else .modelFacing
    strategy
    modelRelevanceUsed := false
    relevanceFailedClosed := false
    globalCharBudget := budget.globalChars
    includedChars := charsOf (included selected)
    candidatesDiscovered := discovered.length
    candidatesOmittedByCap := discovered.length - maxPlanCandidates
    candidates := selected
    contextUsedSummary := buildContextUsedSummary selected }

end ContextDesk.Planning
