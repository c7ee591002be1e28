import ContextDesk.Lib.Buckets
import ContextDesk.Lib.Str

/-!
# The gateway cost ledger

`aggregateRuns` sorts runs into groups by a key made of their source kind, gateway and model, and
sums each group up. The parts of the key stand one after the other with a colon between them
(`runGroupKey`), and a label may have colons of its own; `Overlap` is what that does.
Costs are of a type `F` with the operations in `FloatOps`.
-/

namespace ContextDesk.GatewayCostLedger

open Lib Lib.Str List

def AGGREGATE_SCHEMA_ID : String := "contextdesk.gateway_cost_ledger_aggregate.v1"

def AGGREGATE_SCHEMA_VERSION : UInt32 := 1

inductive MetricU64 where
  | unknown
  | known (value : UInt64)
  deriving DecidableEq

inductive MetricF64 (F : Type) where
  | unknown
  | known (value : F)
  deriving DecidableEq

inductive ObservationBool where
  | unknown
  | known (value : Bool)
  deriving DecidableEq

inductive LedgerSourceKind where
  | diagnosticBundle
  | historicalBenchmarkRow
  | ledgerRun
  deriving DecidableEq

inductive IdentityLabel where
  | exact (value : String)
  | pseudonym (value : String)
  | unknown
  deriving DecidableEq

inductive VerdictStatus where
  | pass
  | fail
  | inconclusive
  deriving DecidableEq

inductive VerdictDimension where
  | gatewayModel
  | productWorkflow
  | answersUseful
  deriving DecidableEq

inductive CleanupStatus where
  | ok
  | failed
  | unknown
  deriving DecidableEq

structure TokenUsage where
  input : MetricU64
  output : MetricU64
  reasoning : MetricU64
  cached : MetricU64
  total : MetricU64
  deriving DecidableEq

structure ComparisonCaveat where
  code : String
  detail : String
  deriving DecidableEq

structure LedgerRunRecord (F : Type) where
  runId : String
  sourceKind : LedgerSourceKind
  sourceRef : String
  model : IdentityLabel
  gateway : IdentityLabel
  requestCount : MetricU64
  tokens : TokenUsage
  reportedCost : MetricF64 F
  elapsedMs : MetricU64
  deadlineExceeded : ObservationBool
  cancelled : ObservationBool
  cleanup : CleanupStatus
  /-- The codes of the failure categories. -/
  failureCategories : List String
  gatewayModel : VerdictStatus
  productWorkflow : VerdictStatus
  answersUseful : VerdictStatus
  caveats : List ComparisonCaveat
  deriving DecidableEq

structure DimensionCounts where
  pass : Nat := 0
  fail : Nat := 0
  inconclusive : Nat := 0
  deriving DecidableEq

structure BooleanCounts where
  trueCount : Nat := 0
  falseCount : Nat := 0
  unknown : Nat := 0
  deriving DecidableEq

structure LedgerAggregateSummary (F : Type) where
  schemaId : String
  schemaVersion : UInt32
  groupKey : String
  displayLabel : String
  sourceKind : LedgerSourceKind
  runCount : Nat
  requestCount : MetricU64
  tokens : TokenUsage
  reportedCost : MetricF64 F
  medianElapsedMs : MetricU64
  gatewayModel : DimensionCounts
  productWorkflow : DimensionCounts
  answersUseful : DimensionCounts
  deadlineExceeded : BooleanCounts
  cancelled : BooleanCounts
  cleanupFailedRuns : Nat
  failureCategories : List String
  caveats : List ComparisonCaveat
  deriving DecidableEq

/-- The operations of `f64` on costs. -/
structure FloatOps (F : Type) where
  zero : F
  add : F → F → F
  isFinite : F → Bool
  /-- From zero to `MAX_REPORTED_COST`. -/
  reportable : F → Bool

/-! ## The key of a group -/

def LedgerSourceKind.asStr : LedgerSourceKind → String
  | .diagnosticBundle => "diagnostic_bundle"
  | .historicalBenchmarkRow => "historical_benchmark_row"
  | .ledgerRun => "ledger_run"

def IdentityLabel.groupingKey : IdentityLabel → String
  | .exact value => "exact:" ++ value
  | .pseudonym value => "pseudonym:" ++ value
  | .unknown => "unknown"

def IdentityLabel.display : IdentityLabel → String
  | .exact value => value
  | .pseudonym value => value
  | .unknown => "unknown"

/-- The key of a label; one that is unknown goes by the run. -/
def IdentityLabel.keyIn (label : IdentityLabel) (runId : String) : String :=
  match label with
  | .unknown => "unknown-run:" ++ runId
  | _ => label.groupingKey

variable {F : Type}

def runGroupKey (run : LedgerRunRecord F) : String :=
  run.sourceKind.asStr ++ ":" ++ run.gateway.keyIn run.runId ++ ":" ++ run.model.keyIn run.runId

/-! ## Summing a group up -/

/-- One step of the sum: `checked_add`, and what is not known stays so. -/
def MetricU64.plus : MetricU64 → MetricU64 → MetricU64
  | .known s, .known v => if s.toNat + v.toNat < 2 ^ 64 then .known (s + v) else .unknown
  | _, _ => .unknown

def MetricU64.sumAll (values : List MetricU64) : MetricU64 :=
  if values = [] then .unknown else values.foldl MetricU64.plus (.known 0)

def MetricF64.plus (ops : FloatOps F) : MetricF64 F → MetricF64 F → MetricF64 F
  | .known s, .known v =>
    if ops.isFinite v && ops.reportable v then .known (ops.add s v) else .unknown
  | _, _ => .unknown

def MetricF64.sumAll (ops : FloatOps F) (values : List (MetricF64 F)) : MetricF64 F :=
  match values.foldl (MetricF64.plus ops) (.known ops.zero) with
  | .known sum => if !values.isEmpty && ops.isFinite sum then .known sum else .unknown
  | .unknown => .unknown

def DimensionCounts.record (counts : DimensionCounts) : VerdictStatus → DimensionCounts
  | .pass => { counts with pass := counts.pass + 1 }
  | .fail => { counts with fail := counts.fail + 1 }
  | .inconclusive => { counts with inconclusive := counts.inconclusive + 1 }

def BooleanCounts.record (counts : BooleanCounts) : ObservationBool → BooleanCounts
  | .known true => { counts with trueCount := counts.trueCount + 1 }
  | .known false => { counts with falseCount := counts.falseCount + 1 }
  | .unknown => { counts with unknown := counts.unknown + 1 }

def LedgerRunRecord.verdict (run : LedgerRunRecord F) : VerdictDimension → VerdictStatus
  | .gatewayModel => run.gatewayModel
  | .productWorkflow => run.productWorkflow
  | .answersUseful => run.answersUseful

def MetricU64.known? : MetricU64 → Option UInt64
  | .known value => some value
  | .unknown => none

/-- The first of the elements with a code, sorted by the code. -/
def distinctBy {α : Type} (code : α → String) (l : List α) : List α :=
  (l.foldl (fun kept a => if kept.any fun b => code b = code a then kept else kept ++ [a])
    []).insertionSort fun a b => code a ≤ code b

def medianU64 (values : List UInt64) : MetricU64 :=
  let sorted := values.insertionSort (· ≤ ·)
  let mid := sorted.length / 2
  if sorted = [] then .unknown
  else if sorted.length % 2 = 1 then .known (sorted.getD mid 0)
  else
    let a := (sorted.getD (mid - 1) 0).toNat
    let b := (sorted.getD mid 0).toNat
    .known (UInt64.ofNat (min (a + b) (2 ^ 64 - 1) / 2))

def readinessCaveat : ComparisonCaveat :=
  { code := "aggregate_not_readiness",
    detail := "aggregates compare share-safe diagnostic evidence only; they never certify " ++
      "model readiness" }

def unknownCostCaveat : ComparisonCaveat :=
  { code := "cost_or_tokens_unknown",
    detail := "at least one run omitted cost or token usage; aggregate cost/token fields stay " ++
      "unknown rather than zero-filled" }

def summarizeGroup (ops : FloatOps F) (groupKey : String) (runs : List (LedgerRunRecord F)) :
    LedgerAggregateSummary F :=
  let dimension (d : VerdictDimension) : DimensionCounts :=
    runs.foldl (fun counts run => counts.record (run.verdict d)) {}
  let boolean (field : LedgerRunRecord F → ObservationBool) : BooleanCounts :=
    runs.foldl (fun counts run => counts.record (field run)) {}
  let tokens : TokenUsage :=
    { input := .sumAll (runs.map fun run => run.tokens.input),
      output := .sumAll (runs.map fun run => run.tokens.output),
      reasoning := .sumAll (runs.map fun run => run.tokens.reasoning),
      cached := .sumAll (runs.map fun run => run.tokens.cached),
      total := .sumAll (runs.map fun run => run.tokens.total) }
  let reportedCost := MetricF64.sumAll ops (runs.map LedgerRunRecord.reportedCost)
  let costUnknown : Bool :=
    match reportedCost with
    | .unknown => true
    | .known _ => tokens.total = .unknown && tokens.input = .unknown
  { schemaId := AGGREGATE_SCHEMA_ID, schemaVersion := AGGREGATE_SCHEMA_VERSION,
    groupKey := groupKey,
    displayLabel := (runs.head?.map fun run => run.model.display).getD "unknown",
    sourceKind := (runs.head?.map LedgerRunRecord.sourceKind).getD .ledgerRun,
    runCount := runs.length,
    requestCount := .sumAll (runs.map LedgerRunRecord.requestCount),
    tokens := tokens, reportedCost := reportedCost,
    medianElapsedMs := medianU64 (runs.filterMap fun run => run.elapsedMs.known?),
    gatewayModel := dimension .gatewayModel, productWorkflow := dimension .productWorkflow,
    answersUseful := dimension .answersUseful,
    deadlineExceeded := boolean LedgerRunRecord.deadlineExceeded,
    cancelled := boolean LedgerRunRecord.cancelled,
    cleanupFailedRuns := runs.countP fun run => run.cleanup = .failed,
    failureCategories := distinctBy id (runs.flatMap LedgerRunRecord.failureCategories),
    caveats := distinctBy ComparisonCaveat.code (runs.flatMap LedgerRunRecord.caveats) ++
      readinessCaveat :: (if costUnknown then [unknownCostCaveat] else []) }

/-- The runs in their groups, sorted by the key. -/
def groupsOf (runs : List (LedgerRunRecord F)) : List (String × List (LedgerRunRecord F)) :=
  (buckets runGroupKey runs).insertionSort fun a b => a.1 ≤ b.1

def aggregateRuns (ops : FloatOps F) (runs : List (LedgerRunRecord F)) :
    List (LedgerAggregateSummary F) :=
  (groupsOf runs).map fun g => summarizeGroup ops g.1 g.2

/-! ## What the keys tell apart -/

inductive IdentityKind where
  | exact
  | pseudonym
  | unknown
  deriving DecidableEq

def IdentityLabel.kind : IdentityLabel → IdentityKind
  | .exact _ => .exact
  | .pseudonym _ => .pseudonym
  | .unknown => .unknown

/-- The text of a label; one that is unknown goes by the run. -/
def IdentityLabel.textIn (label : IdentityLabel) (runId : String) : String :=
  match label with
  | .exact value => value
  | .pseudonym value => value
  | .unknown => runId

def IdentityKind.tag : IdentityKind → String
  | .exact => "exact:"
  | .pseudonym => "pseudonym:"
  | .unknown => "unknown-run:"

theorem keyIn_eq (label : IdentityLabel) (runId : String) :
    label.keyIn runId = label.kind.tag ++ label.textIn runId := by
  cases label <;> rfl

theorem tag_inj {k k' : IdentityKind} {l l' : List Char}
    (h : k.tag.toList ++ l = k'.tag.toList ++ l') : k = k' ∧ l = l' := by
  have hkind : k = k' := by
    have hhead := congrArg List.head? h
    cases k <;> cases k' <;> simp [IdentityKind.tag] at hhead ⊢
  subst hkind
  exact ⟨rfl, append_cancel_left h⟩

theorem asStr_inj {s s' : LedgerSourceKind} {l l' : List Char}
    (h : s.asStr.toList ++ l = s'.asStr.toList ++ l') : s = s' ∧ l = l' := by
  have hkind : s = s' := by
    have hhead := congrArg List.head? h
    cases s <;> cases s' <;> simp [LedgerSourceKind.asStr] at hhead ⊢
  subst hkind
  exact ⟨rfl, append_cancel_left h⟩

theorem keyIn_inj {label label' : IdentityLabel} {runId runId' : String} :
    label.keyIn runId = label'.keyIn runId' ↔
      label = label' ∧ (label = .unknown → runId = runId') := by
  constructor
  · intro h
    rw [keyIn_eq, keyIn_eq] at h
    have hlist := congrArg String.toList h
    rw [String.toList_append, String.toList_append] at hlist
    obtain ⟨hkind, htext⟩ := tag_inj hlist
    have htext := String.toList_inj.mp htext
    cases label <;> cases label' <;> simp_all [IdentityLabel.kind, IdentityLabel.textIn]
  · rintro ⟨rfl, hrun⟩
    cases label with
    | exact => rfl
    | pseudonym => rfl
    | unknown => rw [hrun rfl]

/-- The runs have the same source kind, gateway and model, and are one run where one of the two is
not known. -/
def SameIdentity (a b : LedgerRunRecord F) : Prop :=
  a.sourceKind = b.sourceKind ∧ a.gateway = b.gateway ∧ a.model = b.model ∧
    (a.gateway = .unknown ∨ a.model = .unknown → a.runId = b.runId)

/-- The gateway of the first goes on with a colon into the model of the second. -/
def Overlap (a b : LedgerRunRecord F) : Prop :=
  a.sourceKind = b.sourceKind ∧ a.gateway.kind = b.gateway.kind ∧
    ∃ r, a.gateway.textIn a.runId = b.gateway.textIn b.runId ++ ":" ++ r ∧
      b.model.keyIn b.runId = r ++ ":" ++ a.model.keyIn a.runId

variable {a b : LedgerRunRecord F}

theorem sameIdentity_iff :
    SameIdentity a b ↔ a.sourceKind = b.sourceKind ∧
      a.gateway.keyIn a.runId = b.gateway.keyIn b.runId ∧
      a.model.keyIn a.runId = b.model.keyIn b.runId := by
  rw [keyIn_inj, keyIn_inj]
  constructor
  · rintro ⟨hs, hg, hm, hrun⟩
    exact ⟨hs, ⟨hg, fun h => hrun (.inl h)⟩, hm, fun h => hrun (.inr h)⟩
  · rintro ⟨hs, ⟨hg, hgrun⟩, hm, hmrun⟩
    exact ⟨hs, hg, hm, fun h => h.elim hgrun hmrun⟩

theorem colon_toList (s t : String) : (s ++ ":" ++ t).toList = s.toList ++ ':' :: t.toList := by
  simp

theorem overlap_iff :
    Overlap a b ↔ a.sourceKind = b.sourceKind ∧ ∃ r,
      (a.gateway.keyIn a.runId).toList = (b.gateway.keyIn b.runId).toList ++ ':' :: r ∧
        (b.model.keyIn b.runId).toList = r ++ ':' :: (a.model.keyIn a.runId).toList := by
  unfold Overlap
  refine and_congr_right fun _ => ?_
  rw [keyIn_eq a.gateway, keyIn_eq b.gateway, String.toList_append, String.toList_append]
  constructor
  · rintro ⟨hkind, r, hg, hm⟩
    refine ⟨r.toList, ?_, ?_⟩
    · rw [hkind, hg, colon_toList, append_assoc]
    · rw [hm, colon_toList]
  · rintro ⟨r, hg, hm⟩
    rw [append_assoc] at hg
    obtain ⟨hkind, htext⟩ := tag_inj hg
    refine ⟨hkind, String.ofList r, ?_, ?_⟩
    · rw [← String.toList_inj, colon_toList, String.toList_ofList, htext]
    · rw [← String.toList_inj, colon_toList, String.toList_ofList, hm]

theorem runGroupKey_eq_iff :
    runGroupKey a = runGroupKey b ↔ SameIdentity a b ∨ Overlap a b ∨ Overlap b a := by
  have hkey : ∀ run : LedgerRunRecord F, (runGroupKey run).toList =
      run.sourceKind.asStr.toList ++ (':' :: ((run.gateway.keyIn run.runId).toList ++
        ':' :: (run.model.keyIn run.runId).toList)) := by
    intro run
    unfold runGroupKey
    rw [colon_toList, colon_toList, append_assoc, cons_append]
  rw [← String.toList_inj, hkey, hkey, sameIdentity_iff, overlap_iff, overlap_iff]
  have hsource : ∀ {l l' : List Char},
      a.sourceKind.asStr.toList ++ (':' :: l) = b.sourceKind.asStr.toList ++ (':' :: l') ↔
        a.sourceKind = b.sourceKind ∧ l = l' := by
    intro l l'
    constructor
    · intro h
      obtain ⟨hs, hl⟩ := asStr_inj h
      exact ⟨hs, (cons.inj hl).2⟩
    · rintro ⟨hs, rfl⟩
      rw [hs]
  rw [hsource, separated_eq_iff, String.toList_inj, String.toList_inj,
    eq_comm (a := b.sourceKind), ← and_or_left, ← and_or_left]

theorem not_sameIdentity_of_overlap (h : Overlap a b) : ¬ SameIdentity a b := by
  rintro ⟨-, hgateway, -, hrun⟩
  obtain ⟨-, -, r, htext, -⟩ := h
  have hsame : a.gateway.textIn a.runId = b.gateway.textIn b.runId := by
    rw [← hgateway]
    cases hg : a.gateway with
    | exact => rfl
    | pseudonym => rfl
    | unknown => exact hrun (.inl hg)
  have hlength := congrArg (fun s => s.toList.length) (hsame.symm.trans htext)
  simp at hlength

/-! ## What the groups hold -/

variable (runs : List (LedgerRunRecord F))

theorem groupsOf_bucketed : Bucketed runGroupKey runs (groupsOf runs) :=
  (buckets_bucketed runGroupKey runs).perm (perm_insertionSort _ _)

def DimensionCounts.total (counts : DimensionCounts) : Nat :=
  counts.pass + counts.fail + counts.inconclusive

def BooleanCounts.total (counts : BooleanCounts) : Nat :=
  counts.trueCount + counts.falseCount + counts.unknown

theorem foldl_dimension_total (d : VerdictDimension) (counts : DimensionCounts) :
    (runs.foldl (fun counts run => counts.record (run.verdict d)) counts).total =
      counts.total + runs.length := by
  induction runs generalizing counts with
  | nil => rfl
  | cons run runs ih =>
    have hone : (counts.record (run.verdict d)).total = counts.total + 1 := by
      cases run.verdict d <;> simp [DimensionCounts.record, DimensionCounts.total] <;> omega
    rw [foldl_cons, ih, hone, length_cons]
    omega

theorem foldl_boolean_total (field : LedgerRunRecord F → ObservationBool) (counts : BooleanCounts) :
    (runs.foldl (fun counts run => counts.record (field run)) counts).total =
      counts.total + runs.length := by
  induction runs generalizing counts with
  | nil => rfl
  | cons run runs ih =>
    have hone : (counts.record (field run)).total = counts.total + 1 := by
      rcases field run with _ | _ | _ <;>
        simp [BooleanCounts.record, BooleanCounts.total] <;> omega
    rw [foldl_cons, ih, hone, length_cons]
    omega

/-- Every dimension and every observation is counted once for each run. -/
def LedgerAggregateSummary.Balanced (summary : LedgerAggregateSummary F) : Prop :=
  (∀ counts ∈ [summary.gatewayModel, summary.productWorkflow, summary.answersUseful],
    counts.total = summary.runCount) ∧
  ∀ counts ∈ [summary.deadlineExceeded, summary.cancelled], counts.total = summary.runCount

theorem summarizeGroup_balanced (ops : FloatOps F) (groupKey : String)
    (runs : List (LedgerRunRecord F)) : (summarizeGroup ops groupKey runs).Balanced := by
  constructor
  · intro counts hc
    simp only [mem_cons, not_mem_nil, or_false, summarizeGroup] at hc
    rcases hc with rfl | rfl | rfl <;>
      exact (foldl_dimension_total runs _ {}).trans (Nat.zero_add _)
  · intro counts hc
    simp only [mem_cons, not_mem_nil, or_false, summarizeGroup] at hc
    rcases hc with rfl | rfl <;>
      exact (foldl_boolean_total runs _ {}).trans (Nat.zero_add _)

/-- The runs of one aggregate are those of one identity, and none is lost or counted twice. -/
structure AggregatesRight (ops : FloatOps F) (runs : List (LedgerRunRecord F)) : Prop where
  together : ∀ a ∈ runs, ∀ b ∈ runs,
    ((∃ g ∈ groupsOf runs, a ∈ g.2 ∧ b ∈ g.2) ↔ SameIdentity a b)
  once : (∀ a ∈ runs, ∃! g, g ∈ groupsOf runs ∧ a ∈ g.2) ∧
    ((groupsOf runs).flatMap Prod.snd).Perm runs
  run_count : ((aggregateRuns ops runs).map LedgerAggregateSummary.runCount).sum = runs.length
  balanced : ∀ summary ∈ aggregateRuns ops runs, summary.Balanced

/-- The aggregates are right when no two of the runs overlap, and only then. -/
theorem aggregateRuns_right (ops : FloatOps F) (runs : List (LedgerRunRecord F)) :
    AggregatesRight ops runs ↔ ¬ ∃ a ∈ runs, ∃ b ∈ runs, Overlap a b := by
  have hgroups := groupsOf_bucketed runs
  constructor
  · rintro hright ⟨a, ha, b, hb, hoverlap⟩
    have hkey : runGroupKey a = runGroupKey b := runGroupKey_eq_iff.mpr (.inr (.inl hoverlap))
    have hsame := (hright.together a ha b hb).mp ((hgroups.together ha hb).mpr hkey)
    exact not_sameIdentity_of_overlap hoverlap hsame
  · intro hnone
    have hperm : ((groupsOf runs).flatMap Prod.snd).Perm runs :=
      ((perm_insertionSort _ _).flatMap_right _).trans (buckets_perm runGroupKey runs)
    constructor
    case together =>
      intro a ha b hb
      rw [hgroups.together ha hb, runGroupKey_eq_iff]
      refine or_iff_left fun h => hnone ?_
      rcases h with h | h
      · exact ⟨a, ha, b, hb, h⟩
      · exact ⟨b, hb, a, ha, h⟩
    case once => exact ⟨fun a ha => hgroups.existsUnique ha, hperm⟩
    case run_count =>
      have hsum : ((aggregateRuns ops runs).map LedgerAggregateSummary.runCount).sum =
          ((groupsOf runs).flatMap Prod.snd).length := by
        unfold aggregateRuns
        rw [map_map, length_flatMap]
        rfl
      rw [hsum, hperm.length_eq]
    case balanced =>
      intro summary hs
      obtain ⟨g, -, rfl⟩ := mem_map.mp hs
      exact summarizeGroup_balanced ops g.1 g.2

def LedgerRunRecord.blank (F : Type) (runId : String) (sourceKind : LedgerSourceKind) :
    LedgerRunRecord F :=
  { runId := runId, sourceKind := sourceKind, sourceRef := "", model := .unknown,
    gateway := .unknown, requestCount := .unknown,
    tokens := ⟨.unknown, .unknown, .unknown, .unknown, .unknown⟩, reportedCost := .unknown,
    elapsedMs := .unknown, deadlineExceeded := .unknown, cancelled := .unknown,
    cleanup := .unknown, failureCategories := [], gatewayModel := .inconclusive,
    productWorkflow := .inconclusive, answersUseful := .inconclusive, caveats := [] }

def exactCosts : FloatOps ℚ :=
  { zero := 0, add := (· + ·), isFinite := fun _ => true,
    reportable := fun cost => 0 ≤ cost && cost ≤ 1000000 }

/-- A run of a diagnostic report with its two pseudonyms. -/
def pseudonymRun (runId gateway model : String) : LedgerRunRecord ℚ :=
  { LedgerRunRecord.blank ℚ runId .diagnosticBundle with
    gateway := .pseudonym gateway, model := .pseudonym model }

/-- Two gateways and two models, one aggregate. -/
theorem aggregateRuns_merges :
    ¬ AggregatesRight exactCosts [pseudonymRun "run-1" "p-a:pseudonym:p-b" "p-c",
      pseudonymRun "run-2" "p-a" "p-b:pseudonym:p-c"] := by
  intro hright
  have hkey : runGroupKey (pseudonymRun "run-1" "p-a:pseudonym:p-b" "p-c") =
      runGroupKey (pseudonymRun "run-2" "p-a" "p-b:pseudonym:p-c") := by decide
  have hsame := (hright.together _ mem_cons_self _
    (mem_cons_of_mem _ mem_cons_self)).mp
      (((groupsOf_bucketed _).together mem_cons_self
        (mem_cons_of_mem _ mem_cons_self)).mpr hkey)
  exact absurd hsame.2.1 (by decide)

end ContextDesk.GatewayCostLedger
