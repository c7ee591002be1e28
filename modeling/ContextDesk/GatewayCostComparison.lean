import ContextDesk.GatewayCostLedger
import ContextDesk.Lib.Ties

/-!
# The comparison of gateway cost runs

`buildComparisonReport` sorts the runs by three of their fields before it groups them. Runs that
agree in these and in their group stay in the order in which they came, so the report does not depend
on the order of the runs exactly when such ties agree in what is shown of them (`TiesAgree`).
-/

namespace ContextDesk.GatewayCostLedger

open Lib List

def COMPARISON_SCHEMA_ID : String := "contextdesk.gateway_cost_ledger_comparison.v1"

def COMPARISON_SCHEMA_VERSION : UInt32 := 1

structure RunSummary (F : Type) where
  runId : String
  sourceKind : LedgerSourceKind
  sourceRef : String
  gateway : String
  requestCount : MetricU64
  reportedCost : MetricF64 F
  elapsedMs : MetricU64
  deadlineExceeded : ObservationBool
  cancelled : ObservationBool
  cleanup : String
  gatewayModel : VerdictStatus
  productWorkflow : VerdictStatus
  answersUseful : VerdictStatus
  deriving DecidableEq

structure DimensionPassRates (F : Type) where
  gatewayModel : Option F
  productWorkflow : Option F
  answersUseful : Option F
  deriving DecidableEq

structure ModelComparisonRow (F : Type) where
  model : String
  gateway : String
  sourceKind : LedgerSourceKind
  groupKey : String
  runs : List (RunSummary F)
  aggregate : LedgerAggregateSummary F
  passRates : DimensionPassRates F
  deriving DecidableEq

structure ComparisonReport (F : Type) where
  schemaId : String
  schemaVersion : UInt32
  runCount : Nat
  models : List (ModelComparisonRow F)
  confidenceCaveats : List ComparisonCaveat
  deriving DecidableEq

def CleanupStatus.label : CleanupStatus → String
  | .ok => "ok"
  | .failed => "failed"
  | .unknown => "unknown"

section

variable {F : Type} (ops : FloatOps F) (ratio : Nat → Nat → F)

/-- Inconclusive runs are not measured; `ratio` divides two counts. -/
def DimensionCounts.measuredPassRate (counts : DimensionCounts) : Option F :=
  if counts.pass + counts.fail = 0 then none
  else some (ratio counts.pass (counts.pass + counts.fail))

def runSummary (run : LedgerRunRecord F) : RunSummary F :=
  { runId := run.runId, sourceKind := run.sourceKind, sourceRef := run.sourceRef,
    gateway := run.gateway.display, requestCount := run.requestCount,
    reportedCost := run.reportedCost, elapsedMs := run.elapsedMs,
    deadlineExceeded := run.deadlineExceeded, cancelled := run.cancelled,
    cleanup := run.cleanup.label, gatewayModel := run.gatewayModel,
    productWorkflow := run.productWorkflow, answersUseful := run.answersUseful }

def sortKey (run : LedgerRunRecord F) : Lex (String × Lex (String × String)) :=
  toLex (run.model.groupingKey, toLex (run.runId, run.sourceRef))

def modelRow (sorted : List (LedgerRunRecord F)) (aggregate : LedgerAggregateSummary F) :
    ModelComparisonRow F :=
  let modelRuns := (sorted.filter fun run => runGroupKey run = aggregate.groupKey).map runSummary
  { model := aggregate.displayLabel,
    gateway := (modelRuns.head?.map RunSummary.gateway).getD "unknown",
    sourceKind := aggregate.sourceKind, groupKey := aggregate.groupKey, runs := modelRuns,
    aggregate := aggregate,
    passRates := { gatewayModel := aggregate.gatewayModel.measuredPassRate ratio,
                   productWorkflow := aggregate.productWorkflow.measuredPassRate ratio,
                   answersUseful := aggregate.answersUseful.measuredPassRate ratio } }

def reportCaveats : List ComparisonCaveat :=
  [⟨"share_safe_sources_only", "comparison uses only operator-selected share-safe diagnostic " ++
      "artifacts and documented historical rows; no gateway observation is invented"⟩,
    ⟨"no_readiness_claim_from_aggregate", "this report never certifies models or emits readiness " ++
      "claims from aggregates; inconclusive stays separate from fail and pass"⟩,
    ⟨"unknown_cost_is_not_zero", "missing cost or token fields remain unknown and are never " ++
      "zero-filled in aggregates"⟩,
    ⟨"provenance_cohorts_separate", "observed diagnostic artifacts and documented historical " ++
      "rows are never combined in one aggregate"⟩,
    ⟨"unknown_boolean_is_not_false", "missing deadline or cancellation observations remain " ++
      "unknown rather than false"⟩]

def inconclusiveCaveat : ComparisonCaveat :=
  ⟨"inconclusive_preserved", "at least one run has an inconclusive dimension; pass rates ignore " ++
    "inconclusive rather than counting them as fail"⟩

def anyInconclusive (runs : List (LedgerRunRecord F)) : Bool :=
  runs.any fun run => run.gatewayModel = .inconclusive || run.productWorkflow = .inconclusive ||
    run.answersUseful = .inconclusive

def buildComparisonReport (runs : List (LedgerRunRecord F)) : ComparisonReport F :=
  let sorted := sortBy sortKey runs
  { schemaId := COMPARISON_SCHEMA_ID, schemaVersion := COMPARISON_SCHEMA_VERSION,
    runCount := sorted.length,
    models := sortBy ModelComparisonRow.groupKey
      ((aggregateRuns ops sorted).map (modelRow ratio sorted)),
    confidenceCaveats := sortBy ComparisonCaveat.code
      (reportCaveats ++ if anyInconclusive sorted then [inconclusiveCaveat] else []) }

end

/-! ## What does not depend on the order -/

section

variable {α : Type} {code : α → String} {l l' : List α}

/-- The elements that stay are the first of their code. -/
theorem mem_distinctBy {a : α} :
    a ∈ distinctBy code l ↔ l.find? (fun b => code b = code a) = some a := by
  unfold distinctBy
  rw [mem_insertionSort]
  induction l using List.reverseRecOn generalizing a with
  | nil => simp
  | append_singleton l b ih =>
    rw [foldl_append, foldl_cons, foldl_nil, find?_append]
    split
    · rename_i hany
      rw [ih]
      obtain ⟨c, hc, hcode⟩ := any_eq_true.mp hany
      have hfirst := ih.mp hc
      rw [of_decide_eq_true hcode] at hfirst
      by_cases hab : code b = code a
      · rw [← hab, hfirst, Option.some_or]
      · simp [hab]
    · rename_i hnone
      have hnew : l.find? (fun c => code c = code b) = none := by
        rw [Option.eq_none_iff_forall_ne_some]
        intro c hc
        have hcode : code c = code b := by simpa using find?_some hc
        rw [← hcode] at hc
        exact hnone (any_eq_true.mpr ⟨c, ih.mpr hc, decide_eq_true hcode⟩)
      rw [mem_append, mem_singleton, ih]
      by_cases hab : code b = code a
      · rw [← hab, hnew, Option.none_or, find?_cons_of_pos (by simp)]
        simp [eq_comm]
      · have hne : a ≠ b := fun h => hab (by rw [h])
        simp [hab, hne]

theorem distinctBy_ascending : Keyset.Ascending code (distinctBy code l) := by
  refine Keyset.ascending_insertionSort (fun _ _ => Iff.rfl) ?_
  induction l using List.reverseRecOn with
  | nil => exact nodup_nil
  | append_singleton l b ih =>
    rw [foldl_append, foldl_cons, foldl_nil]
    split
    · exact ih
    · rename_i hnone
      rw [map_append, nodup_append_comm, map_singleton, singleton_append,
        nodup_cons]
      refine ⟨fun hmem => hnone ?_, ih⟩
      obtain ⟨c, hc, hcode⟩ := mem_map.mp hmem
      exact any_eq_true.mpr ⟨c, hc, decide_eq_true hcode⟩

theorem distinctBy_eq_iff : distinctBy code l = distinctBy code l' ↔
    ∀ c, l.find? (fun b => code b = c) = l'.find? fun b => code b = c := by
  constructor
  · intro h c
    have hcode : ∀ {m : List α} {a}, m.find? (fun b => code b = c) = some a → code a = c :=
      fun ha => by simpa using find?_some ha
    have hiff : ∀ a, l.find? (fun b => code b = c) = some a ↔
        l'.find? (fun b => code b = c) = some a := by
      intro a
      constructor
      · intro ha
        obtain rfl := hcode ha
        exact mem_distinctBy.mp (h ▸ mem_distinctBy.mpr ha)
      · intro ha
        obtain rfl := hcode ha
        exact mem_distinctBy.mp (h ▸ mem_distinctBy.mpr ha)
    exact Option.ext hiff
  · intro h
    refine distinctBy_ascending.eq_of_mem distinctBy_ascending fun a => ?_
    rw [mem_distinctBy, mem_distinctBy, h]

theorem distinctBy_id_perm {l l' : List String} (h : l.Perm l') :
    distinctBy id l = distinctBy id l' := by
  refine distinctBy_ascending.eq_of_mem distinctBy_ascending fun a => ?_
  have hself : ∀ m : List String, m.find? (fun b => id b = id a) = some a ↔ a ∈ m := by
    intro m
    refine ⟨mem_of_find?_eq_some, fun ha => ?_⟩
    cases hf : m.find? fun b => id b = id a with
    | none => exact absurd (decide_eq_true rfl) (find?_eq_none.mp hf a ha)
    | some b =>
      have hb := @List.find?_some _ (fun b => decide (id b = id a)) _ _ hf
      exact congrArg some (of_decide_eq_true hb)
  rw [mem_distinctBy, mem_distinctBy, hself, hself, h.mem_iff]

end

theorem MetricU64.plus_unknown (s : MetricU64) : s.plus .unknown = .unknown := by
  cases s <;> rfl

theorem MetricU64.unknown_plus (s : MetricU64) : MetricU64.unknown.plus s = .unknown := by
  cases s <;> rfl

theorem MetricU64.plus_right_comm (s v w : MetricU64) : (s.plus v).plus w = (s.plus w).plus v := by
  have hleft : ∀ s v w : UInt64, s.toNat + v.toNat + w.toNat < 2 ^ 64 →
      ((MetricU64.known s).plus (.known v)).plus (.known w) = .known (s + v + w) := by
    intro s v w h
    have hsv : (s + v).toNat = s.toNat + v.toNat := by
      rw [UInt64.toNat_add, Nat.mod_eq_of_lt (by omega)]
    simp only [plus]
    rw [if_pos (by omega)]
    simp only
    rw [if_pos (by omega)]
  have hlarge : ∀ s v w : UInt64, ¬ s.toNat + v.toNat + w.toNat < 2 ^ 64 →
      ((MetricU64.known s).plus (.known v)).plus (.known w) = .unknown := by
    intro s v w h
    simp only [plus]
    by_cases hsv : s.toNat + v.toNat < 2 ^ 64
    · rw [if_pos hsv]
      simp only
      rw [UInt64.toNat_add, Nat.mod_eq_of_lt hsv, if_neg h]
    · rw [if_neg hsv]
  cases s with
  | unknown => simp only [unknown_plus]
  | known s =>
    cases v with
    | unknown => rw [plus_unknown, unknown_plus, plus_unknown]
    | known v =>
      cases w with
      | unknown => rw [plus_unknown, plus_unknown, unknown_plus]
      | known w =>
        by_cases h : s.toNat + v.toNat + w.toNat < 2 ^ 64
        · rw [hleft s v w h, hleft s w v (by omega), add_right_comm]
        · rw [hlarge s v w h, hlarge s w v (by omega)]

theorem MetricU64.sumAll_perm {values values' : List MetricU64} (h : values.Perm values') :
    sumAll values = sumAll values' := by
  have hcomm : RightCommutative MetricU64.plus := ⟨MetricU64.plus_right_comm⟩
  have hnil : values = [] ↔ values' = [] :=
    ⟨fun hv => (hv ▸ h).nil_eq.symm, fun hv => (hv ▸ h).eq_nil⟩
  unfold sumAll
  simp only [hnil, h.foldl_eq]

def exactOps {F : Type} [AddCommMonoid F] (isFinite reportable : F → Bool) : FloatOps F :=
  { zero := 0, add := (· + ·), isFinite := isFinite, reportable := reportable }

section

variable {F : Type} {isFinite reportable : F → Bool}

theorem MetricF64.plus_unknown (ops : FloatOps F) (s : MetricF64 F) :
    s.plus ops .unknown = .unknown := by cases s <;> rfl

theorem MetricF64.unknown_plus (ops : FloatOps F) (s : MetricF64 F) :
    MetricF64.unknown.plus ops s = .unknown := by cases s <;> rfl

variable [AddCommMonoid F]

theorem MetricF64.plus_right_comm (s v w : MetricF64 F) :
    MetricF64.plus (exactOps isFinite reportable) (s.plus (exactOps isFinite reportable) v) w =
      MetricF64.plus (exactOps isFinite reportable) (s.plus (exactOps isFinite reportable) w) v := by
  cases s with
  | unknown => simp only [unknown_plus]
  | known s =>
    cases v with
    | unknown => rw [plus_unknown, unknown_plus, plus_unknown]
    | known v =>
      cases w with
      | unknown => rw [plus_unknown, plus_unknown, unknown_plus]
      | known w =>
        simp only [plus]
        by_cases hv : (exactOps isFinite reportable).isFinite v &&
            (exactOps isFinite reportable).reportable v
        · by_cases hw : (exactOps isFinite reportable).isFinite w &&
              (exactOps isFinite reportable).reportable w
          · simp only [if_pos hv, if_pos hw]
            exact congrArg known (add_right_comm s v w)
          · simp only [if_pos hv, if_neg hw]
        · by_cases hw : (exactOps isFinite reportable).isFinite w &&
              (exactOps isFinite reportable).reportable w
          · simp only [if_neg hv, if_pos hw]
          · simp only [if_neg hv, if_neg hw]

theorem MetricF64.sumAll_perm {values values' : List (MetricF64 F)} (h : values.Perm values') :
    sumAll (exactOps isFinite reportable) values =
      sumAll (exactOps isFinite reportable) values' := by
  have hcomm : RightCommutative (MetricF64.plus (exactOps isFinite reportable)) :=
    ⟨MetricF64.plus_right_comm⟩
  unfold sumAll
  rw [h.foldl_eq, h.isEmpty_eq]

end

theorem medianU64_perm {values values' : List UInt64} (h : values.Perm values') :
    medianU64 values = medianU64 values' := by
  have htotal : Std.Total fun a b : UInt64 => a ≤ b := ⟨UInt64.le_total⟩
  have htrans : IsTrans UInt64 fun a b => a ≤ b := ⟨fun _ _ _ => UInt64.le_trans⟩
  have hsorted : values.insertionSort (· ≤ ·) = values'.insertionSort (· ≤ ·) :=
    ((perm_insertionSort _ _).trans (h.trans (perm_insertionSort _ _).symm)).eq_of_pairwise
      (fun _ _ _ _ => UInt64.le_antisymm) (pairwise_insertionSort _ _)
      (pairwise_insertionSort _ _)
  unfold medianU64
  rw [hsorted]

theorem DimensionCounts.record_right_comm (counts : DimensionCounts) (v w : VerdictStatus) :
    (counts.record v).record w = (counts.record w).record v := by
  cases v <;> cases w <;> rfl

theorem BooleanCounts.record_right_comm (counts : BooleanCounts) (v w : ObservationBool) :
    (counts.record v).record w = (counts.record w).record v := by
  rcases v with _ | _ | _ <;> rcases w with _ | _ | _ <;> rfl

/-! ## The rows of a report -/

def LedgerRunRecord.caveat {F : Type} (run : LedgerRunRecord F) (code : String) :
    Option ComparisonCaveat :=
  run.caveats.find? fun caveat => caveat.code = code

section

variable {F : Type} [AddCommMonoid F] {isFinite reportable : F → Bool} {ratio : Nat → Nat → F}
  {runs runs' : List (LedgerRunRecord F)}

/-- Only the labels of the first run and the caveats depend on the order of a group. -/
theorem summarizeGroup_congr (hp : runs.Perm runs')
    (hlabel : runs.head?.map (fun run => run.model.display) =
      runs'.head?.map fun run => run.model.display)
    (hsource : runs.head?.map LedgerRunRecord.sourceKind =
      runs'.head?.map LedgerRunRecord.sourceKind) (key : String) :
    summarizeGroup (exactOps isFinite reportable) key runs =
        summarizeGroup (exactOps isFinite reportable) key runs' ↔
      ∀ code, runs.findSome? (fun run => run.caveat code) =
        runs'.findSome? fun run => run.caveat code := by
  have hdimension : ∀ d,
      runs.foldl (fun counts run => counts.record (run.verdict d)) (⟨0, 0, 0⟩ : DimensionCounts) =
        runs'.foldl (fun counts run => counts.record (run.verdict d)) ⟨0, 0, 0⟩ := by
    intro d
    have hcomm : RightCommutative fun (counts : DimensionCounts) (run : LedgerRunRecord F) =>
        counts.record (run.verdict d) := ⟨fun _ _ _ => DimensionCounts.record_right_comm _ _ _⟩
    exact hp.foldl_eq _
  have hboolean : ∀ field : LedgerRunRecord F → ObservationBool,
      runs.foldl (fun counts run => counts.record (field run)) (⟨0, 0, 0⟩ : BooleanCounts) =
        runs'.foldl (fun counts run => counts.record (field run)) ⟨0, 0, 0⟩ := by
    intro field
    have hcomm : RightCommutative fun (counts : BooleanCounts) (run : LedgerRunRecord F) =>
        counts.record (field run) := ⟨fun _ _ _ => BooleanCounts.record_right_comm _ _ _⟩
    exact hp.foldl_eq _
  have hcaveats : (∀ code, runs.findSome? (fun run => run.caveat code) =
      runs'.findSome? fun run => run.caveat code) ↔
        distinctBy ComparisonCaveat.code (runs.flatMap LedgerRunRecord.caveats) =
          distinctBy ComparisonCaveat.code (runs'.flatMap LedgerRunRecord.caveats) := by
    simp only [distinctBy_eq_iff, find?_flatMap]
    rfl
  rw [hcaveats]
  unfold summarizeGroup
  simp only [hlabel, hsource, hdimension, hboolean, hp.length_eq, hp.countP_eq,
    fun field : LedgerRunRecord F → MetricU64 => MetricU64.sumAll_perm (hp.map field),
    MetricF64.sumAll_perm (hp.map LedgerRunRecord.reportedCost),
    medianU64_perm (hp.filterMap fun run : LedgerRunRecord F => run.elapsedMs.known?),
    distinctBy_id_perm (hp.flatMap_right LedgerRunRecord.failureCategories)]
  simp only [LedgerAggregateSummary.mk.injEq, true_and, append_cancel_right_eq]

end

section

variable {F : Type}

def groupKeys (runs : List (LedgerRunRecord F)) : List String := (groupsOf runs).map Prod.fst

theorem groupKeys_ascending (runs : List (LedgerRunRecord F)) :
    Keyset.Ascending id (groupKeys runs) := by
  have hkeys := (buckets_bucketed runGroupKey runs).keys_nodup
  exact pairwise_map.mpr (Keyset.ascending_insertionSort (fun _ _ => Iff.rfl) hkeys)

theorem mem_groupKeys {runs : List (LedgerRunRecord F)} {key : String} :
    key ∈ groupKeys runs ↔ ∃ run ∈ runs, runGroupKey run = key :=
  (groupsOf_bucketed runs).mem_keys

theorem groupKeys_perm {runs runs' : List (LedgerRunRecord F)} (hp : runs.Perm runs') :
    groupKeys runs = groupKeys runs' := by
  refine (groupKeys_ascending runs).eq_of_mem (groupKeys_ascending runs') fun key => ?_
  simp only [mem_groupKeys, hp.mem_iff]

theorem groupsOf_eq (runs : List (LedgerRunRecord F)) :
    groupsOf runs = (groupKeys runs).map fun key => (key, withKey runGroupKey runs key) := by
  unfold groupKeys
  rw [map_map]
  refine (map_id _).symm.trans (map_congr_left fun g hg => ?_)
  exact Prod.ext rfl (((groupsOf_bucketed runs).mem_iff g).mp hg).1

variable (ops : FloatOps F) (ratio : Nat → Nat → F)

def rowOf (sorted : List (LedgerRunRecord F)) (key : String) : ModelComparisonRow F :=
  modelRow ratio sorted (summarizeGroup ops key (withKey runGroupKey sorted key))

theorem models_eq (runs : List (LedgerRunRecord F)) :
    (buildComparisonReport ops ratio runs).models =
      (groupKeys (sortBy sortKey runs)).map (rowOf ops ratio (sortBy sortKey runs)) := by
  have hrows : (aggregateRuns ops (sortBy sortKey runs)).map
      (modelRow ratio (sortBy sortKey runs)) =
        (groupKeys (sortBy sortKey runs)).map (rowOf ops ratio (sortBy sortKey runs)) := by
    unfold aggregateRuns
    rw [groupsOf_eq, map_map, map_map]
    rfl
  have hsorted : SortedBy ModelComparisonRow.groupKey
      ((groupKeys (sortBy sortKey runs)).map (rowOf ops ratio (sortBy sortKey runs))) :=
    pairwise_map.mpr ((groupKeys_ascending _).imp fun hlt => hlt.le)
  unfold buildComparisonReport
  dsimp only
  rw [hrows]
  exact hsorted.sortBy_eq

theorem modelRow_congr {sorted sorted' : List (LedgerRunRecord F)}
    {aggregate : LedgerAggregateSummary F}
    (h : (withKey runGroupKey sorted aggregate.groupKey).map runSummary =
      (withKey runGroupKey sorted' aggregate.groupKey).map runSummary) :
    modelRow ratio sorted aggregate = modelRow ratio sorted' aggregate := by
  unfold withKey at h
  unfold modelRow
  rw [h]

/-! ## Ties -/

/-- The sort leaves the runs in the order in which they came, and they are in one group. -/
def Tied (a b : LedgerRunRecord F) : Prop :=
  runGroupKey a = runGroupKey b ∧ sortKey a = sortKey b

theorem groupingKey_inj {a b : IdentityLabel} (h : a.groupingKey = b.groupingKey) : a = b := by
  have hhead := congrArg List.head? (congrArg String.toList h)
  cases a <;> cases b <;> first
    | rfl
    | simpa [IdentityLabel.groupingKey] using h
    | simp [IdentityLabel.groupingKey] at hhead

theorem Tied.same {a b : LedgerRunRecord F} (h : Tied a b) :
    a.runId = b.runId ∧ a.sourceRef = b.sourceRef ∧ a.model = b.model ∧
      a.sourceKind = b.sourceKind ∧ a.gateway = b.gateway := by
  obtain ⟨hgroup, hsort⟩ := h
  obtain ⟨hmodel, hrest⟩ := Prod.mk.inj (toLex.injective hsort)
  obtain ⟨hrun, href⟩ := Prod.mk.inj (toLex.injective hrest)
  have hmodel := groupingKey_inj hmodel
  -- equal models leave no room for an overlap
  have hover : ∀ {c d : LedgerRunRecord F}, c.model = d.model → c.runId = d.runId →
      ¬ Overlap c d := by
    rintro c d hm hr ⟨-, -, r, -, hkey⟩
    rw [hm, hr] at hkey
    have hlength := congrArg (fun s => s.toList.length) hkey
    simp only [colon_toList, length_append, length_cons] at hlength
    omega
  rcases runGroupKey_eq_iff.mp hgroup with hsame | h | h
  · exact ⟨hrun, href, hmodel, hsame.1, hsame.2.1⟩
  · exact absurd h (hover hmodel hrun)
  · exact absurd h (hover hmodel.symm hrun.symm)

/-- What a report shows of a run apart from its place. -/
structure ShownAlike (a b : LedgerRunRecord F) : Prop where
  requestCount : a.requestCount = b.requestCount
  reportedCost : a.reportedCost = b.reportedCost
  elapsedMs : a.elapsedMs = b.elapsedMs
  deadlineExceeded : a.deadlineExceeded = b.deadlineExceeded
  cancelled : a.cancelled = b.cancelled
  cleanup : a.cleanup = b.cleanup
  gatewayModel : a.gatewayModel = b.gatewayModel
  productWorkflow : a.productWorkflow = b.productWorkflow
  answersUseful : a.answersUseful = b.answersUseful

theorem cleanup_label_inj {a b : CleanupStatus} (h : a.label = b.label) : a = b := by
  cases a <;> cases b <;> simp_all [CleanupStatus.label]

theorem Tied.runSummary_eq_iff {a b : LedgerRunRecord F} (h : Tied a b) :
    runSummary a = runSummary b ↔ ShownAlike a b := by
  obtain ⟨hrun, href, -, hsource, hgateway⟩ := h.same
  constructor
  · intro hs
    simp only [runSummary, RunSummary.mk.injEq] at hs
    obtain ⟨-, -, -, -, h1, h2, h3, h4, h5, h6, h7, h8, h9⟩ := hs
    exact ⟨h1, h2, h3, h4, h5, cleanup_label_inj h6, h7, h8, h9⟩
  · intro hs
    unfold runSummary
    rw [hrun, href, hsource, hgateway, hs.requestCount, hs.reportedCost, hs.elapsedMs,
      hs.deadlineExceeded, hs.cancelled, hs.cleanup, hs.gatewayModel, hs.productWorkflow,
      hs.answersUseful]

/-- Ties are shown alike, and the first of a group that have a caveat of a code have the same. -/
structure TiesAgree (runs : List (LedgerRunRecord F)) : Prop where
  shown : ∀ a ∈ runs, ∀ b ∈ runs, Tied a b → ShownAlike a b
  caveats : ∀ a ∈ runs, ∀ b ∈ runs, Tied a b → ∀ code,
    (∀ c ∈ runs, runGroupKey c = runGroupKey a → sortKey c < sortKey a → c.caveat code = none) →
      a.caveat code = none ∨ b.caveat code = none ∨ a.caveat code = b.caveat code

end

section

variable {F : Type} {sorted sorted' runs : List (LedgerRunRecord F)} {key : String}

theorem tied_of_mem {a b : LedgerRunRecord F} (ha : a ∈ withKey runGroupKey sorted key)
    (hb : b ∈ withKey runGroupKey sorted key) (h : sortKey a = sortKey b) :
    a ∈ sorted ∧ b ∈ sorted ∧ Tied a b := by
  obtain ⟨ha, hakey⟩ := mem_filter.mp ha
  obtain ⟨hb, hbkey⟩ := mem_filter.mp hb
  exact ⟨ha, hb, (of_decide_eq_true hakey).trans (of_decide_eq_true hbkey).symm, h⟩

variable (h : SortedBy sortKey sorted) (h' : SortedBy sortKey sorted') (hp : sorted.Perm sorted')

include h h' hp

theorem map_withKey_eq {β : Type} {f : LedgerRunRecord F → β}
    (hf : ∀ a ∈ sorted, ∀ b ∈ sorted, Tied a b → f a = f b) :
    (withKey runGroupKey sorted key).map f = (withKey runGroupKey sorted' key).map f := by
  refine (h.filter _).map_eq (h'.filter _) (hp.filter _) fun a ha b hb hkey => ?_
  obtain ⟨ha, hb, htied⟩ := tied_of_mem ha hb hkey
  exact hf a ha b hb htied

variable [AddCommMonoid F] {isFinite reportable : F → Bool} {ratio : Nat → Nat → F}

theorem rowOf_eq_iff :
    rowOf (exactOps isFinite reportable) ratio sorted key =
        rowOf (exactOps isFinite reportable) ratio sorted' key ↔
      (withKey runGroupKey sorted key).map runSummary =
          (withKey runGroupKey sorted' key).map runSummary ∧
        ∀ code, (withKey runGroupKey sorted key).findSome? (fun run => run.caveat code) =
          (withKey runGroupKey sorted' key).findSome? fun run => run.caveat code := by
  have hlabels : (withKey runGroupKey sorted key).map (fun run => run.model.display) =
      (withKey runGroupKey sorted' key).map fun run => run.model.display :=
    map_withKey_eq h h' hp fun a _ b _ htied => by rw [htied.same.2.2.1]
  have hsources : (withKey runGroupKey sorted key).map LedgerRunRecord.sourceKind =
      (withKey runGroupKey sorted' key).map LedgerRunRecord.sourceKind :=
    map_withKey_eq h h' hp fun a _ b _ htied => htied.same.2.2.2.1
  have hlabel := congrArg List.head? hlabels
  have hsource := congrArg List.head? hsources
  rw [head?_map, head?_map] at hlabel hsource
  have hperm : (withKey runGroupKey sorted key).Perm (withKey runGroupKey sorted' key) :=
    hp.filter _
  have hsummary := @summarizeGroup_congr _ _ isFinite reportable _ _ hperm hlabel hsource key
  constructor
  · intro hrow
    exact ⟨congrArg ModelComparisonRow.runs hrow,
      hsummary.mp (congrArg ModelComparisonRow.aggregate hrow)⟩
  · rintro ⟨hruns, hcaveats⟩
    have haggregate := hsummary.mpr hcaveats
    unfold rowOf
    rw [haggregate]
    exact modelRow_congr ratio hruns

end

/-! ## The order of the runs -/

section

variable {F : Type} [AddCommMonoid F] {isFinite reportable : F → Bool} {ratio : Nat → Nat → F}
  {runs runs' : List (LedgerRunRecord F)}

omit [AddCommMonoid F] in
theorem sortBy_sortKey_perm (hp : runs'.Perm runs) :
    (sortBy sortKey runs').Perm (sortBy sortKey runs) :=
  (sortBy_perm sortKey runs').trans (hp.trans (sortBy_perm sortKey runs).symm)

theorem report_eq_iff (hp : runs'.Perm runs) :
    buildComparisonReport (exactOps isFinite reportable) ratio runs' =
        buildComparisonReport (exactOps isFinite reportable) ratio runs ↔
      ∀ run ∈ runs,
        rowOf (exactOps isFinite reportable) ratio (sortBy sortKey runs') (runGroupKey run) =
          rowOf (exactOps isFinite reportable) ratio (sortBy sortKey runs) (runGroupKey run) := by
  have hsorted := sortBy_sortKey_perm hp
  have hkeys := groupKeys_perm hsorted
  have hmodels : (buildComparisonReport (exactOps isFinite reportable) ratio runs').models =
      (buildComparisonReport (exactOps isFinite reportable) ratio runs).models ↔
      ∀ run ∈ runs,
        rowOf (exactOps isFinite reportable) ratio (sortBy sortKey runs') (runGroupKey run) =
          rowOf (exactOps isFinite reportable) ratio (sortBy sortKey runs) (runGroupKey run) := by
    rw [models_eq, models_eq, hkeys, map_inj_left]
    simp only [mem_groupKeys, (sortBy_perm sortKey runs).mem_iff]
    exact ⟨fun h run hrun => h _ ⟨run, hrun, rfl⟩, fun h _ ⟨run, hrun, hkey⟩ => hkey ▸ h run hrun⟩
  refine ⟨fun h => hmodels.mp (congrArg ComparisonReport.models h), fun h => ?_⟩
  have hmodels := hmodels.mpr h
  have hany : anyInconclusive (sortBy sortKey runs') = anyInconclusive (sortBy sortKey runs) :=
    hsorted.any_eq
  unfold buildComparisonReport at hmodels ⊢
  dsimp only at hmodels ⊢
  rw [hmodels, hany, hsorted.length_eq]

theorem report_eq_of_tiesAgree (h : TiesAgree runs) (hp : runs'.Perm runs) :
    buildComparisonReport (exactOps isFinite reportable) ratio runs' =
      buildComparisonReport (exactOps isFinite reportable) ratio runs := by
  have hmem : ∀ {run}, run ∈ sortBy sortKey runs' ↔ run ∈ runs :=
    ((sortBy_perm sortKey runs').trans hp).mem_iff
  rw [report_eq_iff hp]
  intro run _
  rw [rowOf_eq_iff (sortBy_sorted sortKey runs') (sortBy_sorted sortKey runs)
    (sortBy_sortKey_perm hp)]
  constructor
  · refine map_withKey_eq (sortBy_sorted _ _) (sortBy_sorted _ _) (sortBy_sortKey_perm hp)
      fun a ha b hb htied => ?_
    exact htied.runSummary_eq_iff.mpr (h.shown a (hmem.mp ha) b (hmem.mp hb) htied)
  · intro code
    refine ((sortBy_sorted _ _).filter _).findSome?_eq ((sortBy_sorted _ _).filter _)
      ((sortBy_sortKey_perm hp).filter _) fun a ha b hb hkey hbefore hasome hbsome => ?_
    obtain ⟨hma, hmb, htied⟩ := tied_of_mem ha hb hkey
    have hfirst : ∀ c ∈ runs, runGroupKey c = runGroupKey a → sortKey c < sortKey a →
        c.caveat code = none := by
      intro c hc hgroup hlt
      have hown := of_decide_eq_true (mem_filter.mp ha).2
      exact hbefore c (mem_filter.mpr ⟨hmem.mpr hc, decide_eq_true (hgroup.trans hown)⟩) hlt
    rcases h.caveats a (hmem.mp hma) b (hmem.mp hmb) htied code hfirst with hnone | hnone | heq
    · rw [hnone] at hasome
      cases hasome
    · rw [hnone] at hbsome
      cases hbsome
    · exact heq

omit [AddCommMonoid F] in
theorem withKey_tie {a b : LedgerRunRecord F} (htied : Tied a b) (rest : List (LedgerRunRecord F)) :
    ∃ before after,
      withKey runGroupKey (sortBy sortKey (a :: b :: rest)) (runGroupKey a) =
        before ++ a :: b :: after ∧
      withKey runGroupKey (sortBy sortKey (b :: a :: rest)) (runGroupKey a) =
        before ++ b :: a :: after ∧
      ∀ c ∈ before, runGroupKey c = runGroupKey a ∧ sortKey c < sortKey a ∧
        c ∈ sortBy sortKey (a :: b :: rest) := by
  obtain ⟨before, after, hab, hba, hbefore⟩ := sortBy_tie htied.2 rest
  have hboth : ∀ after, withKey runGroupKey (a :: b :: after) (runGroupKey a) =
      a :: b :: withKey runGroupKey after (runGroupKey a) ∧
      withKey runGroupKey (b :: a :: after) (runGroupKey a) =
        b :: a :: withKey runGroupKey after (runGroupKey a) := by
    intro after
    simp [withKey, htied.1]
  refine ⟨withKey runGroupKey before (runGroupKey a), withKey runGroupKey after (runGroupKey a),
    ?_, ?_, fun c hc => ?_⟩
  · rw [hab, ← (hboth after).1]
    exact filter_append before _
  · rw [hba, ← (hboth after).2]
    exact filter_append before _
  · obtain ⟨hc, hkey⟩ := mem_filter.mp hc
    refine ⟨of_decide_eq_true hkey, hbefore c hc, ?_⟩
    rw [hab]
    exact mem_append_left _ hc

theorem tiesAgree_of_report_eq
    (h : ∀ runs' : List (LedgerRunRecord F), runs'.Perm runs →
      buildComparisonReport (exactOps isFinite reportable) ratio runs' =
        buildComparisonReport (exactOps isFinite reportable) ratio runs) :
    TiesAgree runs := by
  -- both orders of two ties give the same row of their group
  have hrows : ∀ a ∈ runs, ∀ b ∈ runs, Tied a b → a ≠ b → ∃ before after,
      (∀ c ∈ before, c ∈ runs ∧ runGroupKey c = runGroupKey a ∧ sortKey c < sortKey a) ∧
      (before ++ a :: b :: after).map runSummary = (before ++ b :: a :: after).map runSummary ∧
      ∀ code, (before ++ a :: b :: after).findSome? (fun run => run.caveat code) =
        (before ++ b :: a :: after).findSome? fun run => run.caveat code := by
    intro a ha b hb htied hne
    obtain ⟨rest, hrest⟩ : ∃ rest, (a :: b :: rest).Perm runs := by
      classical
      have hb' : b ∈ runs.erase a := (mem_erase_of_ne hne.symm).mpr hb
      exact ⟨(runs.erase a).erase b, ((perm_cons_erase hb').symm.cons a).trans
        (perm_cons_erase ha).symm⟩
    have hswap : (b :: a :: rest).Perm (a :: b :: rest) := List.Perm.swap a b rest
    have hsame := (h _ (hswap.trans hrest)).trans (h _ hrest).symm
    obtain ⟨before, after, hab, hba, hbefore⟩ := withKey_tie htied rest
    have hrow := (report_eq_iff hswap).mp hsame a mem_cons_self
    rw [rowOf_eq_iff (sortBy_sorted _ _) (sortBy_sorted _ _) (sortBy_sortKey_perm hswap), hab,
      hba] at hrow
    refine ⟨before, after, fun c hc => ?_, hrow.1.symm, fun code => (hrow.2 code).symm⟩
    obtain ⟨hgroup, hlt, hmem⟩ := hbefore c hc
    exact ⟨hrest.mem_iff.mp ((sortBy_perm _ _).mem_iff.mp hmem), hgroup, hlt⟩
  constructor
  case shown =>
    intro a ha b hb htied
    rw [← htied.runSummary_eq_iff]
    by_cases hne : a = b
    · rw [hne]
    · obtain ⟨before, after, -, hmap, -⟩ := hrows a ha b hb htied hne
      rw [map_append, map_append, map_cons, map_cons] at hmap
      exact (cons.inj (append_cancel_left hmap)).1
  case caveats =>
    intro a ha b hb htied code hfirst
    by_cases hne : a = b
    · exact .inr (.inr (by rw [hne]))
    · obtain ⟨before, after, hbefore, -, hcaveats⟩ := hrows a ha b hb htied hne
      have hnone : before.findSome? (fun run => run.caveat code) = none := by
        rw [findSome?_eq_none_iff]
        intro c hc
        obtain ⟨hmem, hgroup, hlt⟩ := hbefore c hc
        exact hfirst c hmem hgroup hlt
      have hfound := hcaveats code
      rw [findSome?_append, findSome?_append, hnone, Option.none_or,
        Option.none_or] at hfound
      cases hca : a.caveat code with
      | none => exact .inl rfl
      | some x =>
        cases hcb : b.caveat code with
        | none => exact .inr (.inl rfl)
        | some y =>
          simp only [findSome?_cons, hca, hcb] at hfound
          exact .inr (.inr hfound)

/-- The report does not depend on the order of the runs exactly when the ties agree. -/
theorem buildComparisonReport_orderFree :
    (∀ runs' : List (LedgerRunRecord F), runs'.Perm runs →
      buildComparisonReport (exactOps isFinite reportable) ratio runs' =
        buildComparisonReport (exactOps isFinite reportable) ratio runs) ↔ TiesAgree runs :=
  ⟨fun h => tiesAgree_of_report_eq h, fun h _ hp => report_eq_of_tiesAgree h hp⟩

end

/-- A run of one id, reported with different times. -/
def timedRun (elapsed : UInt64) : LedgerRunRecord ℚ :=
  { LedgerRunRecord.blank ℚ "run-1" .ledgerRun with
    model := .exact "m", gateway := .exact "g", elapsedMs := .known elapsed }

/-- Ties that do not agree show in the report. -/
theorem buildComparisonReport_reordered :
    buildComparisonReport exactCosts (fun a b => a / b) [timedRun 1, timedRun 2] ≠
      buildComparisonReport exactCosts (fun a b => a / b) [timedRun 2, timedRun 1] := by
  intro h
  have hshown := congrArg (fun report => report.models.map fun row =>
    row.runs.map RunSummary.elapsedMs) h
  exact absurd hshown (by decide)

end ContextDesk.GatewayCostLedger
