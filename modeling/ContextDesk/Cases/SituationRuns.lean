import ContextDesk.Cases.Situation
import ContextDesk.Lib.Runs

/-!
# Partial updates of a situation, interleaved

A call of `updateSituation` reads the case row and prepares its write, later compares the version
under the row lock, and then commits or fails. `SituationState` is one case with the calls that are
under way; `versions` keeps what was committed as each version. In the memory store the row is
written in place before the audit record, so that a read can see it; in PostgreSQL a read sees
committed rows only.

`Timely` is the condition on the reads. Under it a call that succeeds read the very version that it
compares with (`situationInv_step`).
-/

namespace ContextDesk

open Lib

inductive SituationField where
  | problemStatement
  | affectedParties
  | impact
  | scope
  | openQuestions
  | investigationContext
  deriving DecidableEq

inductive SituationValue where
  | text (s : JsString)
  | questions (l : List JsString)
  | context (c : Option InvestigationContextV1)
  deriving DecidableEq

def SituationField.value : SituationField → CaseSituation → SituationValue
  | .problemStatement, s => .text s.problemStatement
  | .affectedParties, s => .text s.affectedParties
  | .impact, s => .text s.impact
  | .scope, s => .text s.scope
  | .openQuestions, s => .questions s.openQuestions
  | .investigationContext, s => .context s.investigationContext

def SITUATION_KEYS : List SituationField :=
  [.problemStatement, .affectedParties, .impact, .scope, .openQuestions, .investigationContext]

/-- `Partial<CaseSituationInput>`; a context is supplied as it came over the wire. -/
structure CaseSituationInput where
  problemStatement : Option JsString := none
  affectedParties : Option JsString := none
  impact : Option JsString := none
  scope : Option JsString := none
  openQuestions : Option (List JsString) := none
  investigationContext : Option JsValue := none

def CaseSituationInput.supplies (input : CaseSituationInput) : SituationField → Bool
  | .problemStatement => input.problemStatement.isSome
  | .affectedParties => input.affectedParties.isSome
  | .impact => input.impact.isSome
  | .scope => input.scope.isSome
  | .openQuestions => input.openQuestions.isSome
  | .investigationContext => input.investigationContext.isSome

def CaseSituationInput.suppliedFields (input : CaseSituationInput) : List SituationField :=
  SITUATION_KEYS.filter input.supplies

structure SituationRow where
  situation : CaseSituation
  situationVersion : Nat
  clean : Clean situation

structure SituationCall where
  actor : JsString
  input : CaseSituationInput
  expectedVersion : Int
  clientTime : Option JsString

structure SituationUpdate where
  situation : CaseSituation
  changedFields : List SituationField
  clientTime : Option JsString

/-- The four texts and the questions, with the missing ones from the row; the row's context. -/
def filledSituation (row : SituationRow) (input : CaseSituationInput) : CaseSituation where
  problemStatement := input.problemStatement.getD row.situation.problemStatement
  affectedParties := input.affectedParties.getD row.situation.affectedParties
  impact := input.impact.getD row.situation.impact
  scope := input.scope.getD row.situation.scope
  openQuestions := input.openQuestions.getD row.situation.openQuestions
  investigationContext := row.situation.investigationContext

def filledContext (row : SituationRow) (input : CaseSituationInput) :
    Outcome (Option InvestigationContextV1) :=
  match input.investigationContext with
  | some raw => normalizeInvestigationContext raw
  | none => .ok row.situation.investigationContext

section

variable (canonicalClientTime : Option JsString → Outcome (Option JsString))

/-- `updateSituation` up to the call of the store, for the row that it read. -/
def prepareSituation (row : SituationRow) (call : SituationCall) : Outcome SituationUpdate := do
  let clientTime ← canonicalClientTime call.clientTime
  ensure (isSafeInteger call.expectedVersion = true ∧ 0 ≤ call.expectedVersion)
    "expectedVersion must be a non-negative safe integer"
  let suppliedFields := call.input.suppliedFields
  ensure (suppliedFields ≠ []) "no situation fields supplied"
  let situation ← cleanSituation (filledSituation row call.input)
  let investigationContext ← filledContext row call.input
  let situation := { situation with investigationContext }
  pure { situation, clientTime
         changedFields := suppliedFields.filter fun f => f.value situation ≠ f.value row.situation }

/-- A call between its read and its comparison. -/
structure PreparedCall where
  call : SituationCall
  read : SituationRow
  update : SituationUpdate
  prepared : prepareSituation canonicalClientTime read call = .ok update

inductive CaseBackend where
  | memory
  | postgres
  deriving DecidableEq

inductive SituationResult where
  | conflict (currentVersion : Nat)
  | unchanged (row : SituationRow)
  | updated (row : SituationRow)

def SituationResult.row? : SituationResult → Option SituationRow
  | .conflict _ => none
  | .unchanged row => some row
  | .updated row => some row

/-- The payload of `case_situation_updated`, with its actor and time. -/
structure SituationEvent where
  actor : JsString
  clientTime : Option JsString
  changedFields : List SituationField
  openQuestionCount : Nat
  predecessorVersion : Int
  situationVersion : Int

/-- One case; the committed columns come first. -/
structure SituationState where
  row : SituationRow
  timeline : List SituationEvent := []
  /-- The actors of the `case_situation_update` records. -/
  audit : List JsString := []
  versions : Nat → Option CaseSituation
  /-- The call whose write is not committed yet. -/
  writing : Option (PreparedCall canonicalClientTime) := none
  calls : Nat → Option (PreparedCall canonicalClientTime) := fun _ => none
  results : List (PreparedCall canonicalClientTime × SituationResult) := []

end

section

variable {canonicalClientTime : Option JsString → Outcome (Option JsString)}

theorem prepareSituation_ok {row : SituationRow} {call : SituationCall} {update : SituationUpdate}
    (h : prepareSituation canonicalClientTime row call = .ok update) :
    ∃ cleaned context, cleanSituation (filledSituation row call.input) = .ok cleaned ∧
      filledContext row call.input = .ok context ∧
      update.situation = { cleaned with investigationContext := context } ∧
      0 ≤ call.expectedVersion ∧
      update.changedFields = call.input.suppliedFields.filter fun f =>
        f.value update.situation ≠ f.value row.situation := by
  simp only [prepareSituation, bind_ok, pure_ok, ensure_ok] at h
  obtain ⟨_, -, _, hexpected, _, -, cleaned, hcleaned, context, hcontext, rfl⟩ := h
  exact ⟨cleaned, context, hcleaned, hcontext, rfl, hexpected.2, rfl⟩

theorem clean_of_prepare {row : SituationRow} {call : SituationCall} {update : SituationUpdate}
    (h : prepareSituation canonicalClientTime row call = .ok update) : Clean update.situation := by
  obtain ⟨cleaned, context, hcleaned, -, hupdate, -⟩ := prepareSituation_ok h
  obtain ⟨hp, ha, hi, hs, hopen, hcount⟩ := clean_of_cleanSituation hcleaned
  rw [hupdate]
  exact ⟨hp, ha, hi, hs, hopen, hcount⟩

def PreparedCall.row (p : PreparedCall canonicalClientTime) (currentVersion : Nat) :
    SituationRow :=
  ⟨p.update.situation, currentVersion + 1, clean_of_prepare p.prepared⟩

def SituationState.start (row : SituationRow) : SituationState canonicalClientTime :=
  { row, versions := fun n => if n = row.situationVersion then some row.situation else none }

/-- The row that a read outside the transaction sees. -/
def SituationState.visible (backend : CaseBackend) (s : SituationState canonicalClientTime) :
    SituationRow :=
  match backend, s.writing with
  | .memory, some p => p.row s.row.situationVersion
  | _, _ => s.row

inductive SituationMove where
  | read (id : Nat) (call : SituationCall)
  | compare (id : Nat)
  | commit
  /-- The timeline or the audit step fails. -/
  | abort

/-- `requireCase` and the preparation; a call that throws is gone. -/
def SituationState.read (backend : CaseBackend) (s : SituationState canonicalClientTime) (id : Nat)
    (call : SituationCall) : SituationState canonicalClientTime :=
  match h : prepareSituation canonicalClientTime (s.visible backend) call with
  | .ok update =>
    { s with calls := Function.update s.calls id (some ⟨call, s.visible backend, update, h⟩) }
  | .error _ => s

/-- `updateSituationAtomic` up to its writes; it waits while another update has the row. -/
def SituationState.compare (s : SituationState canonicalClientTime) (id : Nat) :
    SituationState canonicalClientTime :=
  match s.writing, s.calls id with
  | none, some p =>
    let s := { s with calls := Function.update s.calls id none }
    if (s.row.situationVersion : Int) ≠ p.call.expectedVersion then
      { s with results := s.results ++ [(p, .conflict s.row.situationVersion)] }
    else if p.update.changedFields = [] then
      { s with results := s.results ++ [(p, .unchanged s.row)] }
    else { s with writing := some p }
  | _, _ => s

def PreparedCall.event (p : PreparedCall canonicalClientTime) : SituationEvent where
  actor := p.call.actor
  clientTime := p.update.clientTime
  changedFields := p.update.changedFields
  openQuestionCount := p.update.situation.openQuestions.length
  predecessorVersion := p.call.expectedVersion
  situationVersion := p.call.expectedVersion + 1

def SituationState.commit (s : SituationState canonicalClientTime) :
    SituationState canonicalClientTime :=
  match s.writing with
  | none => s
  | some p =>
    let row := p.row s.row.situationVersion
    { s with
      row, writing := none
      timeline := s.timeline ++ [p.event]
      audit := s.audit ++ [p.call.actor]
      versions := Function.update s.versions row.situationVersion (some row.situation)
      results := s.results ++ [(p, .updated row)] }

def SituationState.step (backend : CaseBackend) (s : SituationState canonicalClientTime) :
    SituationMove → SituationState canonicalClientTime
  | .read id call => s.read backend id call
  | .compare id => s.compare id
  | .commit => s.commit
  | .abort => { s with writing := none }

/-- A read sees a committed row, and the version it is written against is committed. -/
def Timely (backend : CaseBackend) (s : SituationState canonicalClientTime) :
    SituationMove → Prop
  | .read _ call => (backend = .memory → s.writing = none) ∧
      call.expectedVersion ≤ s.row.situationVersion
  | _ => True

/-- What the claim asks of a call that succeeds and leaves `after` behind. -/
def PreparedCall.Faithful (p : PreparedCall canonicalClientTime)
    (versions : Nat → Option CaseSituation) (after : CaseSituation) : Prop :=
  ∃ version, versions p.call.expectedVersion.toNat = some version ∧
    (∀ f, p.call.input.supplies f = false → f.value after = f.value version) ∧
    (∀ f, p.call.input.supplies f = true → f.value after = f.value p.update.situation) ∧
    p.update.changedFields = p.call.input.suppliedFields.filter fun f =>
      f.value p.update.situation ≠ f.value version

theorem mem_suppliedFields {input : CaseSituationInput} {f : SituationField} :
    f ∈ input.suppliedFields ↔ input.supplies f = true := by
  have hkey : f ∈ SITUATION_KEYS := by cases f <;> decide
  rw [CaseSituationInput.suppliedFields, List.mem_filter, and_iff_right hkey]

theorem text_of_not_supplied {supplied : Option JsString} {stored cleaned : JsString}
    {name : String} (hstored : CleanText SITUATION_TEXT_LIMIT stored)
    (hsupplied : supplied.isSome = false)
    (h : cleanSituationText (supplied.getD stored) name = .ok cleaned) : cleaned = stored := by
  rw [Option.isSome_eq_false_iff, Option.isNone_iff_eq_none] at hsupplied
  rw [hsupplied, Option.getD_none, cleanSituationText_ok, hstored.1] at h
  exact h.1.symm

/-- A field that is not supplied keeps the value that was read: what is stored is clean. -/
theorem value_of_not_supplied {row : SituationRow} {call : SituationCall} {update : SituationUpdate}
    (h : prepareSituation canonicalClientTime row call = .ok update) {f : SituationField}
    (hf : call.input.supplies f = false) : f.value update.situation = f.value row.situation := by
  obtain ⟨cleaned, context, hcleaned, hcontext, hupdate, -, -⟩ := prepareSituation_ok h
  have hclean := row.clean
  rw [hupdate]
  cases f with
  | problemStatement =>
    obtain ⟨-, _, -, htext, -⟩ := cleanSituation_ok.mp hcleaned
    exact congrArg SituationValue.text (text_of_not_supplied hclean.problemStatement hf htext)
  | affectedParties =>
    obtain ⟨-, _, -, -, htext, -⟩ := cleanSituation_ok.mp hcleaned
    exact congrArg SituationValue.text (text_of_not_supplied hclean.affectedParties hf htext)
  | impact =>
    obtain ⟨-, _, -, -, -, htext, -⟩ := cleanSituation_ok.mp hcleaned
    exact congrArg SituationValue.text (text_of_not_supplied hclean.impact hf htext)
  | scope =>
    obtain ⟨-, _, -, -, -, -, htext, -⟩ := cleanSituation_ok.mp hcleaned
    exact congrArg SituationValue.text (text_of_not_supplied hclean.scope hf htext)
  | openQuestions =>
    obtain ⟨-, questions, hquestions, -, -, -, -, hopen, -⟩ := cleanSituation_ok.mp hcleaned
    obtain ⟨-, stored, hstored, -, -, -, -, hopen', -⟩ :=
      cleanSituation_ok.mp (cleanSituation_of_clean hclean)
    have hnone : call.input.openQuestions = none := by
      rw [← Option.isNone_iff_eq_none, ← Option.isSome_eq_false_iff]
      exact hf
    have hsame : questions = stored := by
      rw [filledSituation, hnone] at hquestions
      exact (collect_ok.mpr hquestions).symm.trans (collect_ok.mpr hstored) |> Except.ok.inj
    show SituationValue.questions cleaned.openQuestions = .questions row.situation.openQuestions
    rw [hopen, hopen', hsame]
  | investigationContext =>
    have hnone : call.input.investigationContext = none := by
      rw [← Option.isNone_iff_eq_none, ← Option.isSome_eq_false_iff]
      exact hf
    rw [filledContext, hnone, Except.ok.injEq] at hcontext
    show SituationValue.context context = .context row.situation.investigationContext
    rw [hcontext]

theorem faithful_of_read {p : PreparedCall canonicalClientTime}
    {versions : Nat → Option CaseSituation} {after : CaseSituation}
    (hversion : versions p.call.expectedVersion.toNat = some p.read.situation)
    (hafter : ∀ f : SituationField, f.value after = f.value p.update.situation) : p.Faithful versions after := by
  obtain ⟨_, _, -, -, -, -, hchanged⟩ := prepareSituation_ok p.prepared
  refine ⟨p.read.situation, hversion, fun f hf => ?_, fun f _ => hafter f, hchanged⟩
  rw [hafter f]
  exact value_of_not_supplied p.prepared hf

/-- What was read is a committed version, and not older than the one the call names. -/
def SituationState.ReadFrom (s : SituationState canonicalClientTime)
    (p : PreparedCall canonicalClientTime) : Prop :=
  p.read.situationVersion ≤ s.row.situationVersion ∧
    s.versions p.read.situationVersion = some p.read.situation ∧
    p.call.expectedVersion ≤ p.read.situationVersion

structure SituationInv (s : SituationState canonicalClientTime) : Prop where
  current : s.versions s.row.situationVersion = some s.row.situation
  calls : ∀ id p, s.calls id = some p → s.ReadFrom p
  writing : ∀ p, s.writing = some p →
    p.call.expectedVersion = s.row.situationVersion ∧ p.read.situation = s.row.situation
  results : ∀ p result row, (p, result) ∈ s.results → result.row? = some row →
    p.call.expectedVersion ≤ s.row.situationVersion ∧ p.Faithful s.versions row.situation

theorem situationInv_start (row : SituationRow) :
    SituationInv (SituationState.start row : SituationState canonicalClientTime) where
  current := if_pos rfl
  calls := fun _ _ h => by cases h
  writing := fun _ h => by cases h
  results := fun _ _ _ h => by cases h

theorem PreparedCall.Faithful.next {p : PreparedCall canonicalClientTime}
    {versions : Nat → Option CaseSituation} {after : CaseSituation} (h : p.Faithful versions after)
    {n : Nat} (hn : p.call.expectedVersion ≤ n) (new : Option CaseSituation) :
    p.Faithful (Function.update versions (n + 1) new) after := by
  obtain ⟨version, hversion, hrest⟩ := h
  refine ⟨version, ?_, hrest⟩
  rw [Function.update_of_ne (by omega)]
  exact hversion

theorem situationInv_read {backend : CaseBackend} {s : SituationState canonicalClientTime}
    (hs : SituationInv s) {id : Nat} {call : SituationCall}
    (htimely : Timely backend s (.read id call)) : SituationInv (s.read backend id call) := by
  obtain ⟨hidle, hexpected⟩ := htimely
  have hvisible : s.visible backend = s.row := by
    cases backend with
    | memory => simp only [SituationState.visible, hidle rfl]
    | postgres => rfl
  unfold SituationState.read
  split
  · rename_i update h
    refine ⟨hs.current, fun id' p hp => ?_, hs.writing, hs.results⟩
    dsimp only at hp
    rw [Function.update_apply] at hp
    split at hp
    · cases hp
      refine ⟨?_, ?_, ?_⟩ <;> dsimp only <;> rw [hvisible]
      · exact hs.current
      · exact hexpected
    · exact hs.calls id' p hp
  · exact hs

theorem situationInv_compare {s : SituationState canonicalClientTime} (hs : SituationInv s)
    (id : Nat) : SituationInv (s.compare id) := by
  unfold SituationState.compare
  split
  · rename_i p hidle hp
    obtain ⟨hread, hversion, hexpected⟩ := hs.calls id p hp
    have hcalls : ∀ id' p', Function.update s.calls id none id' = some p' → s.ReadFrom p' := by
      intro id' p' h
      rw [Function.update_apply] at h
      split at h
      · cases h
      · exact hs.calls id' p' h
    dsimp only
    split
    · refine ⟨hs.current, hcalls, hs.writing, fun p' result row h hrow => ?_⟩
      rcases List.mem_append.mp h with h | h
      · exact hs.results p' result row h hrow
      · cases List.mem_singleton.mp h
        cases hrow
    · rename_i hsame
      rw [not_not] at hsame
      -- the versions agree, so the row that was read is the row as it stands
      have hnow : p.read.situationVersion = s.row.situationVersion := by omega
      have hsituation : p.read.situation = s.row.situation := by
        rw [hnow, hs.current, Option.some.injEq] at hversion
        exact hversion.symm
      split
      · rename_i hunchanged
        refine ⟨hs.current, hcalls, hs.writing, fun p' result row h hrow => ?_⟩
        rcases List.mem_append.mp h with h | h
        · exact hs.results p' result row h hrow
        · cases List.mem_singleton.mp h
          cases hrow
          refine ⟨hsame.ge, faithful_of_read ?_ fun f => ?_⟩
          · rw [← hsame, Int.toNat_natCast, ← hnow]
            exact hversion
          · by_cases hf : p.call.input.supplies f = true
            · obtain ⟨_, _, -, -, -, -, hchanged⟩ := prepareSituation_ok p.prepared
              rw [hunchanged, eq_comm, List.filter_eq_nil_iff] at hchanged
              have := hchanged f (mem_suppliedFields.mpr hf)
              rw [decide_eq_true_eq, not_not, hsituation] at this
              exact this.symm
            · rw [value_of_not_supplied p.prepared (Bool.not_eq_true _ ▸ hf), hsituation]
      · refine ⟨hs.current, hcalls, fun p' h => ?_, hs.results⟩
        cases h
        exact ⟨hsame.symm, hsituation⟩
  · exact hs

theorem situationInv_commit {s : SituationState canonicalClientTime} (hs : SituationInv s) :
    SituationInv s.commit := by
  unfold SituationState.commit
  split
  · exact hs
  · rename_i p hp
    obtain ⟨hexpected, hsituation⟩ := hs.writing p hp
    refine ⟨Function.update_self _ _ _, fun id q hq => ?_, fun _ h => (by cases h),
      fun q result row h hrow => ?_⟩
    · obtain ⟨hread, hversion, hle⟩ := hs.calls id q hq
      refine ⟨Nat.le_succ_of_le hread, ?_, hle⟩
      dsimp only [PreparedCall.row]
      rw [Function.update_of_ne (by omega)]
      exact hversion
    · dsimp only [PreparedCall.row] at h ⊢
      rcases List.mem_append.mp h with h | h
      · obtain ⟨hle, hfaithful⟩ := hs.results q result row h hrow
        exact ⟨by omega, hfaithful.next hle _⟩
      · cases List.mem_singleton.mp h
        cases hrow
        refine ⟨by omega, (faithful_of_read ?_ fun f => rfl).next hexpected.le _⟩
        rw [hexpected, Int.toNat_natCast, hs.current, hsituation]

theorem situationInv_step {backend : CaseBackend} {s : SituationState canonicalClientTime}
    {move : SituationMove} (hs : SituationInv s) (htimely : Timely backend s move) :
    SituationInv (s.step backend move) := by
  cases move with
  | read id call => exact situationInv_read hs htimely
  | compare id => exact situationInv_compare hs id
  | commit => exact situationInv_commit hs
  | abort => exact ⟨hs.current, hs.calls, fun _ h => (by cases h), hs.results⟩

theorem compare_conflict {s : SituationState canonicalClientTime} {id : Nat}
    {p : PreparedCall canonicalClientTime} (hidle : s.writing = none) (hp : s.calls id = some p)
    (hversion : (s.row.situationVersion : Int) ≠ p.call.expectedVersion) :
    s.compare id = { s with
      calls := Function.update s.calls id none
      results := s.results ++ [(p, .conflict s.row.situationVersion)] } := by
  unfold SituationState.compare
  rw [hidle, hp]
  dsimp only
  rw [if_pos hversion]

/-- In every interleaving of timely reads with the rest, a call that succeeds keeps what it did not
supply and records exactly what it changed, against the version that it names; a call refused with
a conflict leaves the row, its versions, the timeline and the audit as they were. -/
theorem updateSituation_faithful (backend : CaseBackend) (start : SituationRow)
    {s : SituationState canonicalClientTime}
    (h : Reached (SituationState.step backend) (Timely backend) (.start start) s) :
    (∀ p result row, (p, result) ∈ s.results → result.row? = some row →
      p.Faithful s.versions row.situation) ∧
    ∀ id p, s.writing = none → s.calls id = some p →
      (s.row.situationVersion : Int) ≠ p.call.expectedVersion →
      (s.step backend (.compare id)).row = s.row ∧
      (s.step backend (.compare id)).versions = s.versions ∧
      (s.step backend (.compare id)).timeline = s.timeline ∧
      (s.step backend (.compare id)).audit = s.audit ∧
      (s.step backend (.compare id)).writing = none := by
  have hinv : SituationInv s :=
    h.invariant (situationInv_start start) fun _ _ hs htimely => situationInv_step hs htimely
  refine ⟨fun p result row hmem hrow => (hinv.results p result row hmem hrow).2, ?_⟩
  intro id p hidle hp hversion
  have hstep := compare_conflict hidle hp hversion
  simp only [SituationState.step, hstep]
  exact ⟨trivial, trivial, trivial, trivial, hidle⟩

def blankRow : SituationRow where
  situation := ⟨[], [], [], [], [], none⟩
  situationVersion := 0
  clean := ⟨⟨rfl, by decide⟩, ⟨rfl, by decide⟩, ⟨rfl, by decide⟩, ⟨rfl, by decide⟩, by simp,
    by decide⟩

/-- A call that supplies the impact, and one that supplies the scope. -/
def impactCall (expectedVersion : Int) : SituationCall :=
  ⟨[1], { impact := some [120] }, expectedVersion, none⟩

def scopeCall (expectedVersion : Int) : SituationCall :=
  ⟨[2], { scope := some [121] }, expectedVersion, none⟩

/-- The state that a run of moves leads to from a blank case. -/
def situationAfter (backend : CaseBackend) (moves : List SituationMove) : SituationState .ok :=
  moves.foldl (SituationState.step backend) (.start blankRow)

theorem updateSituation_faithful_one :
    (situationAfter .memory [.read 0 (impactCall 0), .compare 0, .commit]).results.length = 1 ∧
    ∀ p result row,
      (p, result) ∈ (situationAfter .memory [.read 0 (impactCall 0), .compare 0, .commit]).results →
      result.row? = some row →
      p.Faithful (situationAfter .memory [.read 0 (impactCall 0), .compare 0, .commit]).versions
        row.situation :=
  ⟨rfl, (updateSituation_faithful .memory blankRow
    (((Reached.start.step (SituationMove.read 0 (impactCall 0)) ⟨fun _ => rfl, by decide⟩).step
      (SituationMove.compare 0) trivial).step SituationMove.commit trivial)).1⟩

/-- A call that names the version its predecessor is about to create reads the row before that. It
succeeds, and takes the predecessor's impact back. -/
theorem updateSituation_unfaithful :
    ∃ entry ∈ (situationAfter .postgres [.read 0 (impactCall 0), .read 1 (scopeCall 1), .compare 0,
        .commit, .compare 1, .commit]).results,
      ∃ row, entry.2.row? = some row ∧ ¬ entry.1.Faithful
        (situationAfter .postgres [.read 0 (impactCall 0), .read 1 (scopeCall 1), .compare 0,
          .commit, .compare 1, .commit]).versions row.situation := by
  refine ⟨_, List.mem_cons_of_mem _ (List.mem_singleton_self _), _, rfl, ?_⟩
  rintro ⟨version, hversion, hkept, -, -⟩
  cases hversion
  exact absurd (hkept .impact rfl) (by decide)

end

end ContextDesk
