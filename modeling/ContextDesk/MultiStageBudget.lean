import Mathlib.Data.Option.Basic
import ContextDesk.Lib.Outcome

/-!
# The multi-stage admission budget

`synthesisReserve` holds back time and one provider round for the final comparison,
`admitCandidate` decides whether one more candidate may be issued, `candidateOperationCapMs` bounds
its call, and `canRunComparison` decides at the end. `Reached` is a turn in which candidates are
issued one after the other, each only when it is admitted. The counters of the source are unsigned
words: their sums stop at the greatest one (`saturatingAdd`).
-/

namespace ContextDesk.MultiStageBudget

def usizeMax : Nat := 2 ^ 64 - 1

/-- `usize::saturating_add`. -/
def saturatingAdd (a b : Nat) : Nat := min (a + b) usizeMax

def multiStageBudgetPolicyV2 : String := "contextdesk.multi_stage_budget.v2"

inductive AdmissionDenial where
  | timeReserve
  | roundReserve
  | cancelled
  | deadline
  deriving DecidableEq

structure AdmissionSnapshot where
  /-- `none` is an unlimited turn. -/
  remainingTotalMs : Option Nat
  usedRounds : Nat
  maxRounds : Nat
  cancelled : Bool
  deriving DecidableEq

structure SynthesisReserve where
  policyId : String
  timeReserveMs : Nat
  roundReserve : Nat
  deriving DecidableEq

/-- The reserve of a turn plan, which is read for its `total_ms` only. -/
def synthesisReserve (totalMs : Nat) : SynthesisReserve :=
  if totalMs = 0 then ⟨multiStageBudgetPolicyV2, 0, 1⟩
  else
    let halfTurn := max (totalMs / 2) 1
    let timeReserveMs := if totalMs ≤ halfTurn then totalMs - 1 else halfTurn
    ⟨multiStageBudgetPolicyV2, timeReserveMs, 1⟩

def admitCandidate (snapshot : AdmissionSnapshot) (reserve : SynthesisReserve) :
    Except AdmissionDenial Unit :=
  if snapshot.cancelled then .error .cancelled
  else if snapshot.remainingTotalMs = some 0 then .error .deadline
  else if snapshot.maxRounds <
      saturatingAdd (saturatingAdd snapshot.usedRounds 1) reserve.roundReserve then
    .error .roundReserve
  else
    match snapshot.remainingTotalMs with
    | some remaining => if remaining ≤ reserve.timeReserveMs then .error .timeReserve else .ok ()
    | none => .ok ()

def candidateOperationCapMs (remainingTotalMs : Option Nat) (phaseCapMs : Nat)
    (reserve : SynthesisReserve) : Option Nat :=
  remainingTotalMs.map fun remaining => min (remaining - reserve.timeReserveMs) phaseCapMs

def synthesisOperationCapMs (remainingTotalMs : Option Nat) (phaseCapMs : Nat) : Option Nat :=
  remainingTotalMs.map fun remaining => min remaining phaseCapMs

def canRunComparison (draftCount : Nat) (snapshot : AdmissionSnapshot) : Bool :=
  if draftCount < 2 then false
  else if snapshot.cancelled then false
  else if snapshot.remainingTotalMs = some 0 then false
  else if snapshot.maxRounds < saturatingAdd snapshot.usedRounds 1 then false
  else true

/-! ## Turns -/

structure Turn where
  snapshot : AdmissionSnapshot
  candidates : Nat
  drafts : Nat
  deriving DecidableEq

/-- A candidate that took `spentMs`, with its round counted and the draft it may have given. -/
def Turn.issue (turn : Turn) (spentMs : Nat) (draft : Bool) : Turn :=
  { snapshot := { turn.snapshot with
      remainingTotalMs := turn.snapshot.remainingTotalMs.map (· - spentMs)
      usedRounds := turn.snapshot.usedRounds + 1 }
    candidates := turn.candidates + 1
    drafts := turn.drafts + draft.toNat }

def Turn.cancel (turn : Turn) : Turn :=
  { turn with snapshot := { turn.snapshot with cancelled := true } }

/-- The turns of a plan: a candidate is issued on an admitted snapshot and spends at most its cap,
and the user may cancel at any time. `totalMs` is zero for an unlimited turn; the time and the
rounds that a turn starts with are those that the rest of the run has left. -/
inductive Reached (totalMs maxRounds : Nat) : Turn → Prop where
  | start {remaining : Option Nat} {used : Nat} {cancelled : Bool}
      (unlimited : remaining = none ↔ totalMs = 0) (hused : used ≤ usizeMax) :
      Reached totalMs maxRounds ⟨⟨remaining, used, maxRounds, cancelled⟩, 0, 0⟩
  | issue {turn : Turn} (phaseCapMs spentMs : Nat) (draft : Bool)
      (before : Reached totalMs maxRounds turn)
      (admitted : admitCandidate turn.snapshot (synthesisReserve totalMs) = .ok ())
      (capped : ∀ cap ∈ candidateOperationCapMs turn.snapshot.remainingTotalMs phaseCapMs
        (synthesisReserve totalMs), spentMs ≤ cap)
      (counted : turn.snapshot.usedRounds < usizeMax) :
      Reached totalMs maxRounds (turn.issue spentMs draft)
  | cancel {turn : Turn} (before : Reached totalMs maxRounds turn) :
      Reached totalMs maxRounds turn.cancel

theorem reserve_rounds (totalMs : Nat) : (synthesisReserve totalMs).roundReserve = 1 := by
  unfold synthesisReserve
  split <;> rfl

variable {totalMs : Nat}

theorem reserve_time (h : 2 ≤ totalMs) :
    1 ≤ (synthesisReserve totalMs).timeReserveMs ∧
      (synthesisReserve totalMs).timeReserveMs < totalMs := by
  unfold synthesisReserve
  rw [if_neg (by omega)]
  simp only
  split <;> omega

/-- What an admission says of the snapshot. -/
theorem admitted_iff {snapshot : AdmissionSnapshot} {reserve : SynthesisReserve} :
    admitCandidate snapshot reserve = .ok () ↔ snapshot.cancelled = false ∧
      saturatingAdd (saturatingAdd snapshot.usedRounds 1) reserve.roundReserve ≤
        snapshot.maxRounds ∧
      ∀ remaining ∈ snapshot.remainingTotalMs, 0 < remaining ∧ reserve.timeReserveMs < remaining := by
  obtain ⟨remaining, used, maxRounds, cancelled⟩ := snapshot
  unfold admitCandidate
  cases cancelled with
  | true => simp
  | false =>
    by_cases hrounds : saturatingAdd (saturatingAdd used 1) reserve.roundReserve ≤ maxRounds
    · have hle : ¬ maxRounds < saturatingAdd (saturatingAdd used 1) reserve.roundReserve := by omega
      cases remaining with
      | none => simp [hrounds, hle]
      | some remaining =>
        by_cases hzero : remaining = 0
        · simp [hzero]
        · by_cases htime : remaining ≤ reserve.timeReserveMs
          · simp [hzero, htime, hle]
          · simp [hzero, htime, hrounds, hle]
            omega
    · have hlt : maxRounds < saturatingAdd (saturatingAdd used 1) reserve.roundReserve := by omega
      cases remaining with
      | none => simp [hrounds, hlt]
      | some remaining =>
        by_cases hzero : remaining = 0
        · simp [hzero]
        · simp [hzero, hrounds, hlt]

structure Kept (totalMs maxRounds : Nat) (turn : Turn) : Prop where
  ceiling : turn.snapshot.maxRounds = maxRounds
  counted : turn.snapshot.usedRounds ≤ usizeMax
  unlimited : turn.snapshot.remainingTotalMs = none ↔ totalMs = 0
  drafts : turn.drafts ≤ turn.candidates
  time : 0 < turn.candidates → ∀ remaining ∈ turn.snapshot.remainingTotalMs,
    (synthesisReserve totalMs).timeReserveMs ≤ remaining
  rounds : 0 < turn.candidates → saturatingAdd turn.snapshot.usedRounds 1 ≤ maxRounds
  exactRounds : 0 < turn.candidates → maxRounds < usizeMax → turn.snapshot.usedRounds + 1 ≤ maxRounds

variable {maxRounds : Nat} {turn : Turn}

theorem Kept.issue {phaseCapMs spentMs : Nat} {draft : Bool} (h : Kept totalMs maxRounds turn)
    (admitted : admitCandidate turn.snapshot (synthesisReserve totalMs) = .ok ())
    (capped : ∀ cap ∈ candidateOperationCapMs turn.snapshot.remainingTotalMs phaseCapMs
      (synthesisReserve totalMs), spentMs ≤ cap) (counted : turn.snapshot.usedRounds < usizeMax) :
    Kept totalMs maxRounds (turn.issue spentMs draft) := by
  obtain ⟨-, hrounds, htime⟩ := admitted_iff.mp admitted
  rw [reserve_rounds, h.ceiling] at hrounds
  unfold saturatingAdd at hrounds
  refine ⟨h.ceiling, counted, ?_, ?_, fun _ => ?_, fun _ => ?_, fun _ hmax => ?_⟩
  · unfold Turn.issue
    simp only [Option.map_eq_none_iff]
    exact h.unlimited
  · have := h.drafts
    have := Bool.toNat_le draft
    unfold Turn.issue
    simp only
    omega
  · intro left hleft
    obtain ⟨remaining, hr, rfl⟩ := Option.map_eq_some_iff.mp hleft
    obtain ⟨-, hover⟩ := htime remaining hr
    have hcap := capped (min (remaining - (synthesisReserve totalMs).timeReserveMs) phaseCapMs)
      (by rw [candidateOperationCapMs, hr]; rfl)
    omega
  · unfold Turn.issue saturatingAdd
    simp only
    omega
  · unfold Turn.issue
    simp only
    omega

theorem reached_kept (h : Reached totalMs maxRounds turn) : Kept totalMs maxRounds turn := by
  induction h with
  | start unlimited hused =>
    refine ⟨rfl, hused, unlimited, Nat.le_refl 0, ?_, ?_, ?_⟩
    · exact fun h => absurd h (Nat.lt_irrefl 0)
    · exact fun h => absurd h (Nat.lt_irrefl 0)
    · exact fun h => absurd h (Nat.lt_irrefl 0)
  | issue phaseCapMs spentMs draft before admitted capped counted ih => exact ih.issue admitted capped counted
  | cancel before ih => exact ⟨ih.1, ih.2, ih.3, ih.4, ih.5, ih.6, ih.7⟩

theorem canRunComparison_iff {drafts : Nat} {snapshot : AdmissionSnapshot} :
    canRunComparison drafts snapshot = true ↔ 2 ≤ drafts ∧ snapshot.cancelled = false ∧
      snapshot.remainingTotalMs ≠ some 0 ∧ saturatingAdd snapshot.usedRounds 1 ≤
        snapshot.maxRounds := by
  unfold canRunComparison
  constructor
  · intro h
    split at h
    · cases h
    · split at h
      · cases h
      · split at h
        · cases h
        · split at h
          · cases h
          · rename_i h1 h2 h3 h4
            exact ⟨by omega, by simpa using h2, h3, by omega⟩
  · rintro ⟨h1, h2, h3, h4⟩
    rw [if_neg (by omega), if_neg (by simp [h2]), if_neg h3, if_neg (by omega)]

/-- After every candidate of a turn the reserve is still there, and with two drafts the comparison
runs unless the turn is cancelled. -/
theorem synthesis_reserve_kept {totalMs maxRounds : Nat} (htotal : 2 ≤ totalMs ∨ totalMs = 0)
    {turn : Turn} (h : Reached totalMs maxRounds turn) :
    (0 < turn.candidates →
      (2 ≤ totalMs → 1 ≤ (synthesisReserve totalMs).timeReserveMs ∧
        ∃ remaining, turn.snapshot.remainingTotalMs = some remaining ∧
          (synthesisReserve totalMs).timeReserveMs ≤ remaining) ∧
      (totalMs = 0 → turn.snapshot.remainingTotalMs = none) ∧
      saturatingAdd turn.snapshot.usedRounds (synthesisReserve totalMs).roundReserve ≤ maxRounds ∧
      (maxRounds < usizeMax →
        turn.snapshot.usedRounds + (synthesisReserve totalMs).roundReserve ≤ maxRounds)) ∧
    (2 ≤ turn.drafts → turn.snapshot.cancelled = false →
      canRunComparison turn.drafts turn.snapshot = true) := by
  have hk := reached_kept h
  rw [reserve_rounds]
  refine ⟨fun hc => ⟨fun h2 => ?_, hk.unlimited.mpr, hk.rounds hc, hk.exactRounds hc⟩,
    fun hdrafts hcancel => ?_⟩
  · cases hr : turn.snapshot.remainingTotalMs with
    | none => exact absurd (hk.unlimited.mp hr) (by omega)
    | some remaining => exact ⟨(reserve_time h2).1, remaining, rfl, hk.time hc remaining hr⟩
  · have hc : 0 < turn.candidates := by
      have := hk.drafts
      omega
    refine canRunComparison_iff.mpr ⟨hdrafts, hcancel, fun hzero => ?_, ?_⟩
    · have hle := hk.time hc 0 hzero
      rcases htotal with h2 | h0
      · have := (reserve_time h2).1
        omega
      · rw [hk.unlimited.mpr h0] at hzero
        cases hzero
    · rw [hk.ceiling]
      exact hk.rounds hc

theorem synthesis_cap_kept (h : Reached totalMs maxRounds turn) (hc : 0 < turn.candidates)
    (phaseCapMs : Nat) :
    ∀ cap ∈ synthesisOperationCapMs turn.snapshot.remainingTotalMs phaseCapMs,
      min (synthesisReserve totalMs).timeReserveMs phaseCapMs ≤ cap := by
  intro cap hcap
  obtain ⟨remaining, hr, rfl⟩ := Option.map_eq_some_iff.mp hcap
  have := (reached_kept h).time hc remaining hr
  omega

/-- Two candidates of a turn of one second, with a draft each. -/
theorem synthesis_reserve_kept_twice :
    ∃ turn, Reached 1000 3 turn ∧ turn.drafts = 2 ∧
      canRunComparison turn.drafts turn.snapshot = true := by
  have h0 : Reached 1000 3 ⟨⟨some 1000, 0, 3, false⟩, 0, 0⟩ := .start (by decide) (by decide)
  have h1 : Reached 1000 3 ⟨⟨some 600, 1, 3, false⟩, 1, 1⟩ :=
    Reached.issue 400 400 true h0 (by decide) (by decide)
      (by decide)
  have h2 : Reached 1000 3 ⟨⟨some 500, 2, 3, false⟩, 2, 2⟩ :=
    Reached.issue 400 100 true h1 (by decide) (by decide)
      (by decide)
  exact ⟨_, h2, rfl, (synthesis_reserve_kept (.inl (by decide)) h2).2 (by decide) rfl⟩

theorem reached_ceiling {n : Nat} (hn : n ≤ usizeMax) :
    Reached 0 usizeMax ⟨⟨none, n, usizeMax, false⟩, n, 0⟩ := by
  induction n with
  | zero => exact .start (by decide) (Nat.zero_le _)
  | succ n ih =>
    have hadmit : admitCandidate ⟨none, n, usizeMax, false⟩ (synthesisReserve 0) = .ok () := by
      refine admitted_iff.mpr ⟨rfl, ?_, fun remaining hr => by cases hr⟩
      unfold saturatingAdd
      exact Nat.min_le_right _ _
    exact Reached.issue 0 0 false
      (ih (Nat.le_of_succ_le hn)) hadmit (fun cap hcap => Nat.zero_le cap) (Nat.lt_of_succ_le hn)

/-- An unlimited turn has no time reserve, and at the greatest round ceiling the sum that is
compared stops at the ceiling, so that the round of the synthesis is spent too. -/
theorem synthesis_reserve_not_kept :
    (∃ turn, Reached 0 3 turn ∧ 0 < turn.candidates ∧ (synthesisReserve 0).timeReserveMs = 0) ∧
    ∃ turn, Reached 0 usizeMax turn ∧ 0 < turn.candidates ∧
      ¬ turn.snapshot.usedRounds + (synthesisReserve 0).roundReserve ≤ usizeMax := by
  constructor
  · have h0 : Reached 0 3 ⟨⟨none, 0, 3, false⟩, 0, 0⟩ := .start (by decide) (by decide)
    have h1 : Reached 0 3 ⟨⟨none, 1, 3, false⟩, 1, 1⟩ :=
      Reached.issue 0 0 true h0 (by decide) (by decide)
        (by decide)
    exact ⟨_, h1, by decide, by decide⟩
  · exact ⟨_, reached_ceiling (Nat.le_refl usizeMax), by decide, by decide⟩

end ContextDesk.MultiStageBudget
