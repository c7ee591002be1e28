import ContextDesk.Cases.Contracts

/-!
# The situation of a case

Six fields with one version. A call supplies some of them and the version it was written against:
it reads the case row, fills the fields it does not supply from that row, and only then compares
the version, under the row lock, and writes all six. `cleanSituation` is the form every stored
situation has.
-/

namespace ContextDesk

open Lib

structure InvestigationContextV1 where
  productName : JsString
  version : JsString
  build : JsString
  component : JsString
  environment : JsString
  organization : JsString
  deriving DecidableEq

def INVESTIGATION_CONTEXT_VALUE_MAX_LENGTH : Nat := 200

/-- The character class of text that is not on a single line. -/
def isControlCharacter (u : UInt16) : Bool :=
  u ≤ 0x1f || (0x7f ≤ u && u ≤ 0x9f) || (0x200b ≤ u && u ≤ 0x200f) ||
    (0x202a ≤ u && u ≤ 0x202e) || (0x2066 ≤ u && u ≤ 0x2069) || u == 0x2028 || u == 0x2029 ||
    u == 0xfeff

def investigationContextShape : ObjectShape :=
  [("productName", .optional, .str), ("version", .optional, .str), ("build", .optional, .str),
    ("component", .optional, .str), ("environment", .optional, .str),
    ("organization", .optional, .str)]

def normalizeInvestigationContextValue (raw : JsValue) (path : String) : Outcome JsString :=
  match raw with
  | .string raw => do
    ensure (raw.length ≤ INVESTIGATION_CONTEXT_VALUE_MAX_LENGTH)
      (ContractViolation path "exceeds 200 characters")
    ensure (raw.any isControlCharacter = false)
      (ContractViolation path "must be a single line of text")
    pure (if (JsString.trim raw).length = 0 then [] else raw)
  | _ => .error (ContractViolation path "expected string")

def normalizeInvestigationContext (raw : JsValue) : Outcome (Option InvestigationContextV1) :=
  let path := "$.investigationContext"
  match raw with
  | .null => .ok none
  | .object record => do
    checkObject path investigationContextShape (.object record)
    let value := fun key => normalizeInvestigationContextValue
      ((ownProperty key record).getD (.string [])) (path ++ "." ++ key)
    let productName ← value "productName"
    let version ← value "version"
    let build ← value "build"
    let component ← value "component"
    let environment ← value "environment"
    let organization ← value "organization"
    pure (if [productName, version, build, component, environment, organization].any (· ≠ [])
      then some ⟨productName, version, build, component, environment, organization⟩ else none)
  | raw => do
    checkObject path investigationContextShape raw
    pure none

structure CaseSituation where
  problemStatement : JsString
  affectedParties : JsString
  impact : JsString
  scope : JsString
  openQuestions : List JsString
  investigationContext : Option InvestigationContextV1
  deriving DecidableEq

def SITUATION_TEXT_LIMIT : Nat := 12000
def SITUATION_QUESTION_LIMIT : Nat := 2000
def SITUATION_QUESTION_COUNT_LIMIT : Nat := 50

def cleanSituationText (value : JsString) (name : String) : Outcome JsString := do
  let cleaned := JsString.trim value
  ensure (cleaned.length ≤ SITUATION_TEXT_LIMIT) (name ++ " is too long")
  pure cleaned

def cleanQuestion (question : JsString) : Outcome JsString := do
  let cleaned := JsString.trim question
  ensure (cleaned.length ≤ SITUATION_QUESTION_LIMIT) "open question is too long"
  pure cleaned

/-- The five fields that are cleaned; the context is kept as it is. -/
def cleanSituation (input : CaseSituation) : Outcome CaseSituation := do
  ensure (input.openQuestions.length ≤ SITUATION_QUESTION_COUNT_LIMIT) "too many open questions"
  let questions ← collect cleanQuestion input.openQuestions
  let problemStatement ← cleanSituationText input.problemStatement "problem statement"
  let affectedParties ← cleanSituationText input.affectedParties "affected parties"
  let impact ← cleanSituationText input.impact "impact"
  let scope ← cleanSituationText input.scope "scope"
  pure { problemStatement, affectedParties, impact, scope,
         openQuestions := questions.filter (· ≠ []),
         investigationContext := input.investigationContext }

/-- A text that cleaning accepts and leaves as it is. -/
def CleanText (limit : Nat) (s : JsString) : Prop := JsString.trim s = s ∧ s.length ≤ limit

/-- What `cleanSituation` returns, and what every stored row has. -/
structure Clean (s : CaseSituation) : Prop where
  problemStatement : CleanText SITUATION_TEXT_LIMIT s.problemStatement
  affectedParties : CleanText SITUATION_TEXT_LIMIT s.affectedParties
  impact : CleanText SITUATION_TEXT_LIMIT s.impact
  scope : CleanText SITUATION_TEXT_LIMIT s.scope
  openQuestions : ∀ q ∈ s.openQuestions, CleanText SITUATION_QUESTION_LIMIT q ∧ q ≠ []
  count : s.openQuestions.length ≤ SITUATION_QUESTION_COUNT_LIMIT

variable {cleaned : JsString}

theorem cleanSituationText_ok {value : JsString} {name : String} :
    cleanSituationText value name = .ok cleaned ↔
      JsString.trim value = cleaned ∧ cleaned.length ≤ SITUATION_TEXT_LIMIT := by
  simp only [cleanSituationText, bind_ok, ensure_ok, pure_ok]
  constructor
  · rintro ⟨-, hlimit, rfl⟩
    exact ⟨rfl, hlimit⟩
  · rintro ⟨rfl, hlimit⟩
    exact ⟨(), hlimit, rfl⟩

theorem cleanQuestion_ok {question : JsString} :
    cleanQuestion question = .ok cleaned ↔
      JsString.trim question = cleaned ∧ cleaned.length ≤ SITUATION_QUESTION_LIMIT := by
  simp only [cleanQuestion, bind_ok, ensure_ok, pure_ok]
  constructor
  · rintro ⟨-, hlimit, rfl⟩
    exact ⟨rfl, hlimit⟩
  · rintro ⟨rfl, hlimit⟩
    exact ⟨(), hlimit, rfl⟩

variable {s : CaseSituation}

theorem cleanSituation_ok {input : CaseSituation} :
    cleanSituation input = .ok s ↔
      input.openQuestions.length ≤ SITUATION_QUESTION_COUNT_LIMIT ∧
      ∃ questions, List.Forall₂ (fun q c => cleanQuestion q = .ok c) input.openQuestions questions ∧
        cleanSituationText input.problemStatement "problem statement" = .ok s.problemStatement ∧
        cleanSituationText input.affectedParties "affected parties" = .ok s.affectedParties ∧
        cleanSituationText input.impact "impact" = .ok s.impact ∧
        cleanSituationText input.scope "scope" = .ok s.scope ∧
        s.openQuestions = questions.filter (· ≠ []) ∧
        s.investigationContext = input.investigationContext := by
  simp only [cleanSituation, bind_ok, ensure_ok, collect_ok, pure_ok]
  constructor
  · rintro ⟨-, hcount, questions, hquestions, p, hp, a, ha, i, hi, c, hc, rfl⟩
    exact ⟨hcount, questions, hquestions, hp, ha, hi, hc, rfl, rfl⟩
  · rintro ⟨hcount, questions, hquestions, hp, ha, hi, hc, hopen, hcontext⟩
    refine ⟨(), hcount, questions, hquestions, _, hp, _, ha, _, hi, _, hc, ?_⟩
    rw [← hopen, ← hcontext]

theorem cleanText_of_ok {value : JsString} {name : String}
    (h : cleanSituationText value name = .ok cleaned) : CleanText SITUATION_TEXT_LIMIT cleaned := by
  obtain ⟨rfl, hlimit⟩ := cleanSituationText_ok.mp h
  exact ⟨JsString.trim_trim value, hlimit⟩

theorem clean_of_cleanSituation {input : CaseSituation} (h : cleanSituation input = .ok s) :
    Clean s := by
  obtain ⟨hcount, questions, hquestions, hp, ha, hi, hc, hopen, -⟩ := cleanSituation_ok.mp h
  refine ⟨cleanText_of_ok hp, cleanText_of_ok ha, cleanText_of_ok hi, cleanText_of_ok hc, ?_, ?_⟩
  · intro q hq
    rw [hopen, List.mem_filter, decide_eq_true_eq] at hq
    obtain ⟨question, -, hquestion⟩ := exists_mem_left hquestions hq.1
    obtain ⟨rfl, hlimit⟩ := cleanQuestion_ok.mp hquestion
    exact ⟨⟨JsString.trim_trim question, hlimit⟩, hq.2⟩
  · rw [hopen]
    refine (List.length_filter_le _ questions).trans ?_
    rw [← hquestions.length_eq]
    exact hcount

theorem cleanSituation_of_clean (h : Clean s) : cleanSituation s = .ok s := by
  refine cleanSituation_ok.mpr ⟨h.count, s.openQuestions, ?_, cleanSituationText_ok.mpr
    h.problemStatement, cleanSituationText_ok.mpr h.affectedParties, cleanSituationText_ok.mpr
    h.impact, cleanSituationText_ok.mpr h.scope, ?_, rfl⟩
  · refine List.forall₂_same.mpr fun q hq => cleanQuestion_ok.mpr (h.openQuestions q hq).1
  · refine (List.filter_eq_self.mpr fun q hq => ?_).symm
    exact decide_eq_true (h.openQuestions q hq).2

end ContextDesk

/-!
## The rows of the case store
-/

namespace ContextDesk

open Lib

structure Actor where
  id : JsString
  username : JsString
  deriving DecidableEq

inductive PrivacyClass where
  | owner_only
  | share_safe
  deriving DecidableEq

def PrivacyClass.text : PrivacyClass → String
  | .owner_only => "owner_only"
  | .share_safe => "share_safe"

inductive ContributionKind where
  | message
  | note
  | hypothesis
  | action
  | upload
  | external_run
  | handoff
  deriving DecidableEq

inductive HypothesisStatus where
  | proposed
  | supported
  | contradicted
  | superseded
  deriving DecidableEq

inductive HypothesisLinkKind where
  | artifact
  | contribution
  deriving DecidableEq

structure HypothesisLink where
  kind : HypothesisLinkKind
  id : JsString
  deriving DecidableEq

structure RevisionRow where
  contributionId : JsString
  caseId : JsString
  kind : ContributionKind
  revision : Nat
  predecessorRevision : Option Nat
  body : JsString
  contentHash : JsString
  privacyClass : PrivacyClass
  tombstone : Bool
  authorId : JsString
  authorUsername : JsString
  createdAt : JsString
  hypothesisStatus : Option HypothesisStatus
  hypothesisLinks : List HypothesisLink
  sourceId : JsString
  deriving DecidableEq

end ContextDesk
