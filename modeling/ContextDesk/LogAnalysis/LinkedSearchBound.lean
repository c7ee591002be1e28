import ContextDesk.Lib.Json
import ContextDesk.Lib.Text
import Mathlib.Data.Finset.Sort
import Mathlib.Data.Prod.Lex
import Mathlib.Data.String.Basic

/-!
# The bound on linked searches

After each `search_logs` of a turn the tracker decides whether another one may follow. A result
with an event that no earlier result had is always allowed; of the others only the first search of
the turn and one material refinement are (`linked_search_progress`).
-/

namespace ContextDesk

open Lib

/-- How many materially changed searches without a new event may run. -/
def MAX_MATERIAL_NO_PROGRESS_REFINEMENTS : Nat := 1

/-- `u32::saturating_add`. -/
def saturatingAdd32 (m n : Nat) : Nat := min (m + n) (2 ^ 32 - 1)

structure SearchEvidenceIdentity where
  seq : Nat
  source : String

/-! ## Sets of events -/

/-- Pairs of sequence and source, in the order of the `BTreeSet`. -/
structure CiteableEvidenceSet where
  identities : Finset (Nat ×ₗ String)

namespace CiteableEvidenceSet

def empty : CiteableEvidenceSet := ⟨∅⟩

def fromEvidence (evidence : List SearchEvidenceIdentity) : CiteableEvidenceSet :=
  ⟨((evidence.filter fun e => e.source ≠ "").map fun e => toLex (e.seq, e.source)).toFinset⟩

def len (s : CiteableEvidenceSet) : Nat := s.identities.card

def isEmpty (s : CiteableEvidenceSet) : Bool := s.identities = ∅

def newCountVs (s prior : CiteableEvidenceSet) : Nat :=
  (s.identities.filter (· ∉ prior.identities)).card

def isSubsetOf (s prior : CiteableEvidenceSet) : Bool := s.identities ⊆ prior.identities

def extendUnion (s other : CiteableEvidenceSet) : CiteableEvidenceSet :=
  ⟨s.identities ∪ other.identities⟩

def fingerprint (s : CiteableEvidenceSet) : String :=
  if s.isEmpty then "empty"
  else "\x1e".intercalate
    (s.identities.sort.map fun id => toString (ofLex id).1 ++ "\x1f" ++ (ofLex id).2)

end CiteableEvidenceSet

/-! ## Intents -/

section

-- `as i64` of the number with the text
variable (floatAsI64 : String → Int)

def normStr (v : Option Json) : String :=
  match v.bind Json.str? with
  | some s =>
    let trimmed := Text.trim s.toList
    if trimmed = [] then "-" else String.ofList (Text.asciiLower trimmed)
  | none => "-"

/-- An integer beyond `i64` is a `u64`, and wraps. -/
def normI64 : Option Json → String
  | some (.int n) => toString (if n < 2 ^ 63 then n else n - 2 ^ 64)
  | some (.float text) => toString (floatAsI64 text)
  | _ => "-"

def normBool : Option Json → String
  | some (.bool b) => if b then "1" else "0"
  | _ => "-"

def normU64 (v : Option Json) : String :=
  match v.bind Json.nat? with
  | some n => toString n
  | none => "-"

structure SearchIntentKey where
  key : String
  deriving DecidableEq

def SearchIntentKey.fromSearchLogsArgs (args : Json) : SearchIntentKey where
  key := "q=" ++ normStr (args.field? "query") ++ "|lv=" ++ normStr (args.field? "level") ++
    "|svc=" ++ normStr (args.field? "service") ++ "|tr=" ++ normStr (args.field? "trace_id") ++
    "|tf=" ++ normI64 floatAsI64 (args.field? "time_from") ++
    "|tt=" ++ normI64 floatAsI64 (args.field? "time_to") ++
    "|sem=" ++ normBool (args.field? "semantic") ++ "|k=" ++ normU64 (args.field? "k") ++
    "|candidate_k=" ++ normU64 (args.field? "candidate_k")

/-! ## The tracker -/

inductive StopReason where
  | linked_search_non_progress_duplicate_result
  | linked_search_non_progress_same_evidence_changed_args
  | linked_search_non_progress_zero_hits
  | linked_search_non_progress_no_new_events

def StopReason.text : StopReason → String
  | .linked_search_non_progress_duplicate_result => "linked_search_non_progress_duplicate_result"
  | .linked_search_non_progress_same_evidence_changed_args =>
    "linked_search_non_progress_same_evidence_changed_args"
  | .linked_search_non_progress_zero_hits => "linked_search_non_progress_zero_hits"
  | .linked_search_non_progress_no_new_events => "linked_search_non_progress_no_new_events"

inductive BoundDecision where
  | Allow (newEventCount unionSize : Nat)
  | Stop (reasonCode : StopReason) (modelMessage trailStep : String)

structure LinkedSearchProgressTracker where
  seenUnion : CiteableEvidenceSet
  searchAttempts : Nat
  materialRefinementsUsed : Nat
  lastIntent : Option SearchIntentKey
  lastEvidenceFp : Option String

/-- The arguments of one `search_logs` and what it returned. -/
structure SearchLogsCall where
  args : Json
  evidence : List SearchEvidenceIdentity
  ok : Bool

def shortFp (fp : String) : String :=
  if 48 < fp.length then String.ofList (fp.toList.take 48) ++ "…" else fp

namespace LinkedSearchProgressTracker

def new : LinkedSearchProgressTracker where
  seenUnion := .empty
  searchAttempts := 0
  materialRefinementsUsed := 0
  lastIntent := none
  lastEvidenceFp := none

def unionSize (t : LinkedSearchProgressTracker) : Nat := t.seenUnion.len

def stop (t : LinkedSearchProgressTracker) (reasonCode : StopReason) (evidenceFp : String) :
    BoundDecision :=
  .Stop reasonCode
    ("HOST BOUND: further search_logs calls are blocked for this turn because this " ++
      "result added no new host-verified citeable events " ++
      "(fingerprint=" ++ evidenceFp ++ ", union_size=" ++ toString t.unionSize ++
      ", attempts=" ++ toString t.searchAttempts ++ "). " ++
      "Do not repeat search_logs. Other tools (workspace search, memory, help) remain " ++
      "available when offered. Synthesize from the evidence already retrieved, or refuse " ++
      "if it is insufficient. Reason: " ++ reasonCode.text ++ ".")
    (reasonCode.text ++ ":attempts=" ++ toString t.searchAttempts ++ ";union=" ++
      toString t.unionSize ++ ";fp=" ++ shortFp evidenceFp)

def observeSearchLogs (t : LinkedSearchProgressTracker) (call : SearchLogsCall) :
    LinkedSearchProgressTracker × BoundDecision :=
  let intent := SearchIntentKey.fromSearchLogsArgs floatAsI64 call.args
  let current := CiteableEvidenceSet.fromEvidence call.evidence
  let newEventCount := current.newCountVs t.seenUnion
  let evidenceFp := current.fingerprint
  let sameFpAsLast : Bool := t.lastEvidenceFp = some evidenceFp
  let intentChanged : Bool := t.lastIntent.any (· ≠ intent)
  let exactRepeat : Bool := t.lastIntent = some intent && sameFpAsLast
  let t : LinkedSearchProgressTracker :=
    { t with
      searchAttempts := saturatingAdd32 t.searchAttempts 1
      lastIntent := some intent
      lastEvidenceFp := some evidenceFp }
  if 0 < newEventCount then
    let t := { t with seenUnion := t.seenUnion.extendUnion current }
    (t, .Allow newEventCount t.unionSize)
  -- the first search always proceeds, so that its result is seen once
  else if t.searchAttempts = 1 then (t, .Allow 0 t.unionSize)
  else if exactRepeat || (sameFpAsLast && !current.isEmpty) then
    (t, t.stop
      (if exactRepeat then .linked_search_non_progress_duplicate_result
        else .linked_search_non_progress_same_evidence_changed_args) evidenceFp)
  else if (intentChanged && (current.isEmpty || current.isSubsetOf t.seenUnion)) &&
      t.materialRefinementsUsed < MAX_MATERIAL_NO_PROGRESS_REFINEMENTS then
    ({ t with materialRefinementsUsed := saturatingAdd32 t.materialRefinementsUsed 1 },
      .Allow 0 t.unionSize)
  else
    (t, t.stop
      (if current.isEmpty then .linked_search_non_progress_zero_hits
        else if sameFpAsLast && intentChanged then
          .linked_search_non_progress_same_evidence_changed_args
        else .linked_search_non_progress_no_new_events) evidenceFp)

def after (t : LinkedSearchProgressTracker) (calls : List SearchLogsCall) :
    LinkedSearchProgressTracker :=
  calls.foldl (fun t call => (t.observeSearchLogs floatAsI64 call).1) t

def decisions : LinkedSearchProgressTracker → List SearchLogsCall → List BoundDecision
  | _, [] => []
  | t, call :: calls =>
    (t.observeSearchLogs floatAsI64 call).2 ::
      decisions (t.observeSearchLogs floatAsI64 call).1 calls

end LinkedSearchProgressTracker

/-- The pairs of the calls that have a source. -/
def observed (calls : List SearchLogsCall) : Finset (Nat ×ₗ String) :=
  (CiteableEvidenceSet.fromEvidence (calls.flatMap (·.evidence))).identities

def BoundDecision.isAllow : BoundDecision → Bool
  | .Allow _ _ => true
  | .Stop _ _ _ => false

def BoundDecision.isIdle : BoundDecision → Bool
  | .Allow n _ => n = 0
  | .Stop _ _ _ => false

@[simp] theorem BoundDecision.isAllow_allow (n u : Nat) : (Allow n u).isAllow = true := rfl

@[simp] theorem BoundDecision.isAllow_stop (code : StopReason) (message step : String) :
    (Stop code message step).isAllow = false := rfl

@[simp] theorem BoundDecision.isIdle_allow (n u : Nat) : (Allow n u).isIdle = decide (n = 0) := rfl

@[simp] theorem BoundDecision.isIdle_stop (code : StopReason) (message step : String) :
    (Stop code message step).isIdle = false := rfl

theorem observed_append (calls calls' : List SearchLogsCall) :
    observed (calls ++ calls') = observed calls ∪ observed calls' := by
  simp [observed, CiteableEvidenceSet.fromEvidence, List.toFinset_append]

theorem observed_singleton (call : SearchLogsCall) :
    observed [call] = (CiteableEvidenceSet.fromEvidence call.evidence).identities := by
  simp [observed]

end

/-! ## One observation -/

namespace LinkedSearchProgressTracker

section

variable (floatAsI64 : String → Int) (t : LinkedSearchProgressTracker) (call : SearchLogsCall)

/-- The searches without a new event that may still be allowed. -/
def budget : Nat :=
  (if t.searchAttempts = 0 then 1 else 0) +
    (MAX_MATERIAL_NO_PROGRESS_REFINEMENTS - t.materialRefinementsUsed)

theorem attempts_succ (n : Nat) : saturatingAdd32 n 1 ≠ 0 ∧ (saturatingAdd32 n 1 = 1 ↔ n = 0) := by
  unfold saturatingAdd32
  omega

theorem observe_attempts : (t.observeSearchLogs floatAsI64 call).1.searchAttempts =
    saturatingAdd32 t.searchAttempts 1 := by
  unfold observeSearchLogs
  simp only [apply_ite Prod.fst, apply_ite searchAttempts, ite_self]

/-- What an observation does: it adds the events to the union, reports the new ones, stops only
where there are none, and pays for every search it allows without one. -/
theorem observe_step :
    (t.observeSearchLogs floatAsI64 call).1.seenUnion.identities =
      t.seenUnion.identities ∪ observed [call] ∧
    (∀ n u, (t.observeSearchLogs floatAsI64 call).2 = .Allow n u →
      n = (observed [call] \ t.seenUnion.identities).card ∧
      u = (t.observeSearchLogs floatAsI64 call).1.unionSize) ∧
    ((observed [call] \ t.seenUnion.identities).Nonempty →
      (t.observeSearchLogs floatAsI64 call).2.isAllow = true) ∧
    (t.observeSearchLogs floatAsI64 call).2.isIdle.toNat +
      (t.observeSearchLogs floatAsI64 call).1.budget ≤ t.budget := by
  rw [observed_singleton]
  have hcount : (CiteableEvidenceSet.fromEvidence call.evidence).newCountVs t.seenUnion =
      ((CiteableEvidenceSet.fromEvidence call.evidence).identities \ t.seenUnion.identities).card := by
    rw [CiteableEvidenceSet.newCountVs, Finset.sdiff_eq_filter]
  obtain ⟨hpositive, hfirst⟩ := attempts_succ t.searchAttempts
  unfold observeSearchLogs
  by_cases hnew : 0 < (CiteableEvidenceSet.fromEvidence call.evidence).newCountVs t.seenUnion
  · simp only [if_pos hnew]
    refine ⟨rfl, fun n u h => ?_, fun _ => rfl, ?_⟩
    · obtain ⟨rfl, rfl⟩ := BoundDecision.Allow.inj h
      exact ⟨hcount, rfl⟩
    · simp only [BoundDecision.isIdle_allow, budget, if_neg hpositive]
      rw [decide_eq_false (by omega)]
      simp
  · have hzero : ((CiteableEvidenceSet.fromEvidence call.evidence).identities \
        t.seenUnion.identities) = ∅ := Finset.card_eq_zero.mp (by omega)
    have hunion : t.seenUnion.identities = t.seenUnion.identities ∪
        (CiteableEvidenceSet.fromEvidence call.evidence).identities :=
      (Finset.union_eq_left.mpr (Finset.sdiff_eq_empty_iff_subset.mp hzero)).symm
    simp only [if_neg hnew, hfirst]
    rw [hzero]
    by_cases hattempts : t.searchAttempts = 0
    · simp only [if_pos hattempts]
      refine ⟨hunion, fun n u h => ?_, fun h => absurd h Finset.not_nonempty_empty, ?_⟩
      · obtain ⟨rfl, rfl⟩ := BoundDecision.Allow.inj h
        exact ⟨rfl, rfl⟩
      · simp [budget, hattempts, attempts_succ]
    · simp only [if_neg hattempts]
      split
      · refine ⟨hunion, fun n u h => ?_, fun h => absurd h Finset.not_nonempty_empty, ?_⟩
        · exact BoundDecision.noConfusion h
        · simp [stop, budget, hpositive]
      · split
        · rename_i hrefine
          have hleft := of_decide_eq_true (Bool.and_eq_true_iff.mp hrefine).2
          refine ⟨hunion, fun n u h => ?_, fun h => absurd h Finset.not_nonempty_empty, ?_⟩
          · obtain ⟨rfl, rfl⟩ := BoundDecision.Allow.inj h
            exact ⟨rfl, rfl⟩
          · simp only [BoundDecision.isIdle_allow, budget, if_neg hpositive, if_neg hattempts]
            simp only [MAX_MATERIAL_NO_PROGRESS_REFINEMENTS, saturatingAdd32] at hleft ⊢
            simp
            omega
        · refine ⟨hunion, fun n u h => ?_, fun h => absurd h Finset.not_nonempty_empty, ?_⟩
          · exact BoundDecision.noConfusion h
          · simp [stop, budget, hpositive]

end

/-! ## A whole turn -/

section

variable (floatAsI64 : String → Int)

theorem after_seen (t : LinkedSearchProgressTracker) (calls : List SearchLogsCall) :
    (t.after floatAsI64 calls).seenUnion.identities =
      t.seenUnion.identities ∪ observed calls := by
  induction calls generalizing t with
  | nil => simp [after, observed, CiteableEvidenceSet.fromEvidence]
  | cons call calls ih =>
    have hrest := ih (t.observeSearchLogs floatAsI64 call).1
    rw [(observe_step floatAsI64 t call).1, Finset.union_assoc, ← observed_append] at hrest
    exact hrest

theorem new_after (calls : List SearchLogsCall) :
    (new.after floatAsI64 calls).seenUnion.identities = observed calls := by
  rw [after_seen]
  exact Finset.empty_union _

theorem idle_le_budget (t : LinkedSearchProgressTracker) (calls : List SearchLogsCall) :
    (t.decisions floatAsI64 calls).countP (·.isIdle) ≤ t.budget := by
  induction calls generalizing t with
  | nil => exact Nat.zero_le _
  | cons call calls ih =>
    have hrest := ih (t.observeSearchLogs floatAsI64 call).1
    have hstep := (observe_step floatAsI64 t call).2.2.2
    rw [decisions, List.countP_cons]
    cases hidle : (t.observeSearchLogs floatAsI64 call).2.isIdle <;>
      simp only [hidle, Bool.toNat_true, Bool.toNat_false, if_true, Bool.false_eq_true,
        if_false] at hstep ⊢ <;> omega

/-- Every allowed search is idle or brings a new event. -/
theorem allowed_le (t : LinkedSearchProgressTracker) (calls : List SearchLogsCall) :
    (t.decisions floatAsI64 calls).countP (·.isAllow) + t.seenUnion.identities.card ≤
      (t.after floatAsI64 calls).seenUnion.identities.card +
        (t.decisions floatAsI64 calls).countP (·.isIdle) := by
  induction calls generalizing t with
  | nil => simp [decisions, after]
  | cons call calls ih =>
    have hrest := ih (t.observeSearchLogs floatAsI64 call).1
    obtain ⟨hseen, hallow, -, -⟩ := observe_step floatAsI64 t call
    have hcard : (t.observeSearchLogs floatAsI64 call).1.seenUnion.identities.card =
        t.seenUnion.identities.card + (observed [call] \ t.seenUnion.identities).card := by
      rw [hseen, Finset.union_comm, ← Finset.sdiff_union_self_eq_union,
        Finset.card_union_of_disjoint Finset.sdiff_disjoint, Nat.add_comm]
    rw [decisions, List.countP_cons, List.countP_cons]
    rw [show t.after floatAsI64 (call :: calls) =
      (t.observeSearchLogs floatAsI64 call).1.after floatAsI64 calls from rfl]
    cases hdecision : (t.observeSearchLogs floatAsI64 call).2 with
    | Stop _ _ _ =>
      simp only [BoundDecision.isAllow_stop, BoundDecision.isIdle_stop, Bool.false_eq_true,
        if_false]
      omega
    | Allow n u =>
      obtain ⟨hn, -⟩ := hallow n u hdecision
      simp only [BoundDecision.isAllow_allow, BoundDecision.isIdle_allow, if_true,
        decide_eq_true_eq]
      split <;> omega

end

end LinkedSearchProgressTracker

open LinkedSearchProgressTracker

/-- What the tracker of a fresh turn does, over every sequence of searches. -/
theorem linked_search_progress (floatAsI64 : String → Int) (calls : List SearchLogsCall) :
    (new.after floatAsI64 calls).unionSize = (observed calls).card ∧
    (∀ call,
      (∀ n u, ((new.after floatAsI64 calls).observeSearchLogs floatAsI64 call).2 = .Allow n u →
        n = (observed [call] \ observed calls).card ∧
        u = (observed (calls ++ [call])).card) ∧
      ((observed [call] \ observed calls).Nonempty →
        ((new.after floatAsI64 calls).observeSearchLogs floatAsI64 call).2.isAllow = true)) ∧
    (new.decisions floatAsI64 calls).countP (·.isIdle) ≤ 2 ∧
    (∀ call, ((new.after floatAsI64 [call]).decisions floatAsI64 calls).countP (·.isIdle) ≤ 1) ∧
    (new.decisions floatAsI64 calls).countP (·.isAllow) ≤ (observed calls).card + 2 := by
  have hidle := idle_le_budget floatAsI64 new calls
  refine ⟨congrArg Finset.card (new_after floatAsI64 calls), ?_, hidle, fun call => ?_, ?_⟩
  · intro call
    obtain ⟨hseen, hallow, hnew, -⟩ :=
      observe_step floatAsI64 (new.after floatAsI64 calls) call
    rw [new_after] at hseen hallow hnew
    refine ⟨fun n u h => ?_, hnew⟩
    obtain ⟨hn, hu⟩ := hallow n u h
    rw [unionSize, CiteableEvidenceSet.len, hseen, ← observed_append] at hu
    exact ⟨hn, hu⟩
  · refine Nat.le_trans (idle_le_budget floatAsI64 _ calls) ?_
    have hattempts : (new.after floatAsI64 [call]).searchAttempts ≠ 0 := by
      rw [after, List.foldl_cons, List.foldl_nil, observe_attempts]
      exact (attempts_succ _).1
    simp only [budget, if_neg hattempts, MAX_MATERIAL_NO_PROGRESS_REFINEMENTS]
    omega
  · have hallowed := allowed_le floatAsI64 new calls
    rw [new_after] at hallowed
    have hempty : new.seenUnion.identities.card = 0 := rfl
    have hbudget : budget new = 2 := rfl
    omega

def sampleSearch (seq : Nat) : SearchLogsCall :=
  ⟨.obj [("query", .str " Job ")], [⟨seq, "a.log"⟩], true⟩

theorem linked_search_progress_sample :
    ((new.after (fun _ => 0) [sampleSearch 1]).observeSearchLogs (fun _ => 0)
      (sampleSearch 2)).2.isAllow = true :=
  ((linked_search_progress (fun _ => 0) [sampleSearch 1]).2.1 (sampleSearch 2)).2 (by decide)

end ContextDesk
