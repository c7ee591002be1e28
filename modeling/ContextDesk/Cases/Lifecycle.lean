import ContextDesk.Cases.Contracts

/-!
# Archiving and restoring

The status of a case, and the decisions about archiving it and bringing it back. Where a restore
lands is read off the recorded status changes: the one with the highest sequence that is a working
status.
-/

namespace ContextDesk

open Lib

inductive CaseStatus where
  | «open»
  | monitoring
  | resolved
  | archived
  deriving DecidableEq

def CaseStatus.text : CaseStatus → String
  | .open => "open"
  | .monitoring => "monitoring"
  | .resolved => "resolved"
  | .archived => "archived"

def CASE_STATUSES : List CaseStatus := [.open, .monitoring, .resolved, .archived]

def ARCHIVED_STATUS : CaseStatus := .archived
def DEFAULT_RESTORE_STATUS : CaseStatus := .open

def STATUSES_REQUIRING_RESOLUTION : List CaseStatus := [.resolved]

def statusRequiresResolution (status : CaseStatus) : Bool := status ∈ STATUSES_REQUIRING_RESOLUTION

inductive LifecycleAction where
  | archive
  | restore
  deriving DecidableEq

inductive LifecycleRefusal where
  | legal_hold
  | already_archived
  | not_archived
  | unknown_status
  deriving DecidableEq

inductive LifecycleVerdict where
  | allowed (action : LifecycleAction) (targetStatus : CaseStatus)
  | refused (action : LifecycleAction) (reason : LifecycleRefusal) (detail : String)
  deriving DecidableEq

structure LifecycleSubject where
  status : CaseStatus
  legalHold : Bool

structure StatusHistoryEntry where
  status : JsString
  recordedSequence : Nat
  recordedAt : JsString

structure InvestigationLifecycleExpectedV1 where
  status : CaseStatus
  legalHold : Bool
  restoreTarget : CaseStatus
  deriving DecidableEq

structure InvestigationLifecycleActionRequestV1 where
  investigationId : JsString
  action : LifecycleAction
  expected : InvestigationLifecycleExpectedV1
  clientTime : Option JsString

structure InvestigationLifecycleV1 where
  investigationId : JsString
  status : CaseStatus
  legalHold : Bool
  archive : LifecycleVerdict
  restore : LifecycleVerdict
  restoreTarget : CaseStatus
  deriving DecidableEq

structure InvestigationLifecycleChangedV1 where
  investigationId : JsString
  action : LifecycleAction
  current : InvestigationLifecycleV1
  deriving DecidableEq

/-- `isCaseStatus`, with the status. -/
def caseStatusOf (value : JsString) : Option CaseStatus :=
  CASE_STATUSES.find? fun status => JsString.ofString status.text = value

section

variable (date : DateParser)

/-- The working status that an entry records, unless the entry is skipped. -/
def recordedStatus (entry : StatusHistoryEntry) : Option CaseStatus :=
  if entry.status = JsString.ofString ARCHIVED_STATUS.text then none
  else
    match caseStatusOf entry.status with
    | none => none
    | some status =>
      if (date.parse entry.recordedAt).isNone then none
      else if isSafeInteger entry.recordedSequence = false ∨ entry.recordedSequence < 1 then none
      else some status

def restoreStep (best : Option (CaseStatus × Nat)) (entry : StatusHistoryEntry) :
    Option (CaseStatus × Nat) :=
  match recordedStatus date entry with
  | none => best
  | some status =>
    if ∀ b ∈ best, entry.recordedSequence > b.2 then some (status, entry.recordedSequence) else best

def restoreTarget (history : List StatusHistoryEntry) : CaseStatus :=
  match history.foldl (restoreStep date) none with
  | none => DEFAULT_RESTORE_STATUS
  | some best => best.1

def evaluateArchive (subject : LifecycleSubject) : LifecycleVerdict :=
  if subject.legalHold then
    .refused .archive .legal_hold ("This investigation is under legal hold, so it stays in the " ++
      "working list. Clear the hold first if it should be archived.")
  else if subject.status = ARCHIVED_STATUS then
    .refused .archive .already_archived "This investigation is already archived."
  else .allowed .archive ARCHIVED_STATUS

def evaluateRestore (subject : LifecycleSubject) (history : List StatusHistoryEntry) :
    LifecycleVerdict :=
  if subject.status ≠ ARCHIVED_STATUS then
    .refused .restore .not_archived
      "This investigation is not archived, so there is nothing to restore."
  else .allowed .restore (restoreTarget date history)

end

/-- A status change that must enter through a lifecycle action. -/
def isLifecycleTransition («from» «to» : CaseStatus) : Bool :=
  «to» = ARCHIVED_STATUS ∨ «from» = ARCHIVED_STATUS

section

variable {date : DateParser}

theorem caseStatusOf_text (status : CaseStatus) :
    caseStatusOf (JsString.ofString status.text) = some status := by
  cases status <;> rfl

variable {history : List StatusHistoryEntry}

theorem restoreStep_mem {best : CaseStatus × Nat}
    (h : history.foldl (restoreStep date) none = some best) :
    ∃ entry ∈ history, entry.recordedSequence = best.2 := by
  induction history using List.reverseRecOn generalizing best with
  | nil => cases h
  | append_singleton history entry ih =>
    rw [List.foldl_append, List.foldl_cons, List.foldl_nil] at h
    have hearlier (h : history.foldl (restoreStep date) none = some best) :
        ∃ e ∈ history ++ [entry], e.recordedSequence = best.2 := by
      obtain ⟨e, he, hseq⟩ := ih h
      exact ⟨e, List.mem_append_left _ he, hseq⟩
    unfold restoreStep at h
    split at h
    · exact hearlier h
    · split at h
      · cases h
        exact ⟨entry, List.mem_append_right _ (List.mem_singleton_self entry), rfl⟩
      · exact hearlier h

theorem restoreTarget_skip {entry : StatusHistoryEntry} (h : recordedStatus date entry = none) :
    restoreTarget date (history ++ [entry]) = restoreTarget date history := by
  have hstep : ∀ best, restoreStep date best entry = best := by
    intro best
    unfold restoreStep
    rw [h]
  rw [restoreTarget, List.foldl_append, List.foldl_cons, List.foldl_nil, hstep]
  rfl

theorem restoreTarget_last {entry : StatusHistoryEntry} {status : CaseStatus}
    (h : recordedStatus date entry = some status)
    (hlast : ∀ e ∈ history, e.recordedSequence < entry.recordedSequence) :
    restoreTarget date (history ++ [entry]) = status := by
  have hstep : restoreStep date (history.foldl (restoreStep date) none) entry =
      some (status, entry.recordedSequence) := by
    unfold restoreStep
    rw [h]
    refine if_pos fun best hbest => ?_
    obtain ⟨e, he, hseq⟩ := restoreStep_mem (Option.mem_def.mp hbest)
    rw [← hseq]
    exact hlast e he
  rw [restoreTarget, List.foldl_append, List.foldl_cons, List.foldl_nil, hstep]

variable {n : Nat}

theorem isSafeInteger_nat (h : (n : Int) ≤ MAX_SAFE_INTEGER) : isSafeInteger (n : Rat) = true := by
  have hlow : -MAX_SAFE_INTEGER ≤ (n : Int) := by
    have hmin : -MAX_SAFE_INTEGER ≤ 0 := by decide
    exact hmin.trans (Int.natCast_nonneg n)
  simp [isSafeInteger, hlow, h]

/-- An entry with a time and a sequence of the server records its status, unless it is the archive. -/
theorem recordedStatus_of_working {status : CaseStatus} {time : UtcTime}
    (hworking : status ≠ ARCHIVED_STATUS) (hpos : 1 ≤ n) (hsafe : (n : Int) ≤ MAX_SAFE_INTEGER) :
    recordedStatus date ⟨JsString.ofString status.text, n, time.toISOString⟩ = some status := by
  have hne : JsString.ofString status.text ≠ JsString.ofString ARCHIVED_STATUS.text := by
    intro h
    have := caseStatusOf_text status
    rw [h, caseStatusOf_text] at this
    exact hworking (Option.some.inj this).symm
  have htime : (date.parse time.toISOString).isNone = false := by
    have := date.parse_toISOString time
    cases h : date.parse time.toISOString with
    | none =>
      rw [h] at this
      cases this
    | some instant => rfl
  have hseq : ¬ (isSafeInteger (n : Rat) = false ∨ n < 1) := by
    rintro (hseq | hzero)
    · rw [isSafeInteger_nat hsafe] at hseq
      cases hseq
    · omega
  simp only [recordedStatus, if_neg hne, caseStatusOf_text, htime, Bool.false_eq_true, if_false,
    if_neg hseq]

theorem recordedStatus_archived {time : JsString} :
    recordedStatus date ⟨JsString.ofString ARCHIVED_STATUS.text, n, time⟩ = none := if_pos rfl

end

end ContextDesk
