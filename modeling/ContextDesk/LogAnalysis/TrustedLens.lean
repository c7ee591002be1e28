import ContextDesk.LogAnalysis.LensRuns
import ContextDesk.LogAnalysis.QueryFilter

/-!
# The trusted lens

`trustedSuppressionLens` is a call that nothing interrupts (`run_uninterrupted`). In every reached
system it returns the lens of the current moment, from the cache or not
(`trustedSuppressionLens_fresh`): the templates that the policy on disk authorizes hiding, judged
by the current identities. A request therefore hides only events of such templates.
-/

namespace ContextDesk.LogAnalysis

open Lib
open scoped Lib.WordOrder

variable {lib : SuppressionLibrary} {corpusId : String}

def trustedSuppressionLens (lib : SuppressionLibrary) (corpusId : String) (s : LensSystem)
    (measured : Bool) : TrustedSuppressionLens × Option CachedSuppressionLens :=
  let sidecar := s.observe measured
  let templateAnalysisRevision := s.now.templateRevision
  match cacheHit s.cache sidecar templateAnalysisRevision with
  | some cached => (restampEventRevision cached.lens s.eventRevision, s.cache)
  | none =>
    let lens := freshLens lib corpusId s.now s.eventRevision
    if sidecar ≠ .unmeasurable ∧ s.observe measured = sidecar then
      if s.now.templateRevision = templateAnalysisRevision then
        (lens, some ⟨sidecar, templateAnalysisRevision, lens⟩)
      else (lens, s.cache)
    else (lens, s.cache)

def applyTrustedSuppressionLens (lib : SuppressionLibrary) (corpusId : String) (s : LensSystem)
    (measured : Bool) (query : EventQuery) : EventQuery × SuppressionLensApplication :=
  applyLensToQuery (trustedSuppressionLens lib corpusId s measured).1 query

variable {s : LensSystem} {measured : Bool}

theorem trustedSuppressionLens_hit {cached : CachedSuppressionLens}
    (h : cacheHit s.cache (s.observe measured) s.now.templateRevision = some cached) :
    trustedSuppressionLens lib corpusId s measured =
      (restampEventRevision cached.lens s.eventRevision, s.cache) := by
  simp only [trustedSuppressionLens, h]

theorem trustedSuppressionLens_miss
    (h : cacheHit s.cache (s.observe measured) s.now.templateRevision = none) :
    trustedSuppressionLens lib corpusId s measured =
      (freshLens lib corpusId s.now s.eventRevision,
        if s.observe measured ≠ .unmeasurable then
          some ⟨s.observe measured, s.now.templateRevision,
            freshLens lib corpusId s.now s.eventRevision⟩
        else s.cache) := by
  simp only [trustedSuppressionLens, h]
  by_cases hmeasured : s.observe measured = .unmeasurable
  · simp [hmeasured]
  · simp [hmeasured]

/-! ## A call that nothing interrupts -/

def LensSystem.at (s : LensSystem) (call : Nat) (cache : Option CachedSuppressionLens)
    (stage : CallStage) : LensSystem :=
  { s with cache := cache, calls := Function.update s.calls call (some ⟨s.time, stage⟩) }

theorem step_at (s : LensSystem) (call : Nat) (cache : Option CachedSuppressionLens)
    (stage : CallStage) (measured : Bool) :
    (LensAction.step call measured).apply lib corpusId (s.at call cache stage) =
      s.at call (stage.cacheAfter cache)
        (stage.next lib corpusId { s with cache := cache } measured) := by
  rw [LensAction.apply]
  simp only [LensSystem.at, Function.update_self, Function.update_idem]
  cases stage <;> rfl

theorem run_steps (s : LensSystem) (call : Nat) (cache : Option CachedSuppressionLens)
    (stage : CallStage) (measured : Bool) (n : Nat) :
    (s.at call cache stage).run lib corpusId (List.replicate (n + 1) (.step call measured)) =
      (s.at call (stage.cacheAfter cache)
        (stage.next lib corpusId { s with cache := cache } measured)).run lib corpusId
        (List.replicate n (.step call measured)) := by
  rw [List.replicate_succ, LensSystem.run, List.foldl_cons, step_at]
  rfl

theorem run_step {call : Nat} {stage next : CallStage} {n : Nat}
    (hcache : stage.cacheAfter s.cache = s.cache)
    (hnext : stage.next lib corpusId s measured = next) :
    (s.at call s.cache stage).run lib corpusId (List.replicate (n + 1) (.step call measured)) =
      (s.at call s.cache next).run lib corpusId (List.replicate n (.step call measured)) := by
  rw [run_steps, hcache]
  exact congrArg (fun stage => (s.at call s.cache stage).run lib corpusId _) hnext

theorem run_returned (s : LensSystem) (call : Nat) (cache : Option CachedSuppressionLens)
    (settled : Nat) (lens : TrustedSuppressionLens) (measured : Bool) (n : Nat) :
    (s.at call cache (.returned settled lens)).run lib corpusId
        (List.replicate n (.step call measured)) =
      s.at call cache (.returned settled lens) := by
  induction n with
  | zero => rfl
  | succ n ih =>
    rw [run_steps]
    exact ih

theorem run_readings (s : LensSystem) (call : Nat) (cache : Option CachedSuppressionLens)
    (sidecar : SidecarIdentity) (revision : Nat) (todo : List Reading) (r : LensReadings)
    (measured : Bool) (n : Nat) :
    (s.at call cache (.resolving sidecar revision todo r)).run lib corpusId
        (List.replicate (todo.length + n) (.step call measured)) =
      (s.at call cache (.resolving sidecar revision []
        (todo.foldl (fun r reading => reading.read s.now s.eventRevision r) r))).run lib corpusId
        (List.replicate n (.step call measured)) := by
  induction todo generalizing r with
  | nil => rw [List.length_nil, Nat.zero_add, List.foldl_nil]
  | cons reading todo ih =>
    rw [List.length_cons, Nat.add_right_comm, run_steps, List.foldl_cons]
    exact ih (reading.read s.now s.eventRevision r)

variable {r : LensReadings}

theorem foldl_reads {l : List Moment} {i j : Nat} {m : Moment} (hm : Current l i j m)
    (eventRevision : Nat) {todo : List Reading} (h : ReadDuring l i j todo r) :
    ReadDuring l i j []
      (todo.foldl (fun r reading => reading.read m eventRevision r) r) := by
  induction todo generalizing r with
  | nil => exact h
  | cons reading todo ih => exact ih (h.next hm eventRevision)

theorem foldl_eventRevision (m : Moment) (eventRevision : Nat) {todo : List Reading}
    (h : Reading.eventRevision ∈ todo ∨ r.eventRevision = eventRevision) :
    (todo.foldl (fun r reading => reading.read m eventRevision r) r).eventRevision =
      eventRevision := by
  induction todo generalizing r with
  | nil =>
    rcases h with h | h
    · cases h
    · exact h
  | cons reading todo ih =>
    refine ih ?_
    rcases h with h | h
    · rcases List.mem_cons.mp h with rfl | h
      · exact .inr rfl
      · exact .inl h
    · refine .inr ?_
      cases reading <;> first | exact h | rfl

theorem script_readings (m : Moment) (eventRevision : Nat) :
    Reading.script.foldl (fun r reading => reading.read m eventRevision r) .empty =
      m.readings eventRevision := by
  have hread : ReadDuring [m] 0 0 Reading.script .empty :=
    fun reading hout => absurd reading.mem_script hout
  obtain ⟨m', ⟨k, -, hk, hat⟩, -, heq⟩ := (foldl_reads (.at rfl (Nat.le_refl 0) (Nat.le_refl 0))
    eventRevision hread).steady (List.pairwise_singleton _ _) rfl rfl rfl
  obtain rfl : k = 0 := by omega
  obtain rfl : m = m' := Option.some.inj hat
  rw [heq, foldl_eventRevision m eventRevision (.inl Reading.eventRevision.mem_script)]

/-- The steps of a call, one after the other, are the call. -/
theorem run_uninterrupted {call : Nat} (hfree : s.calls call = none) (measured : Bool) :
    s.run lib corpusId (.start call :: List.replicate 20 (.step call measured)) =
      s.at call (trustedSuppressionLens lib corpusId s measured).2
        (.returned s.time (trustedSuppressionLens lib corpusId s measured).1) := by
  have hstart : s.run lib corpusId (.start call :: List.replicate 20 (.step call measured)) =
      (s.at call s.cache .started).run lib corpusId (List.replicate 20 (.step call measured)) := by
    rw [LensSystem.run, List.foldl_cons, LensAction.apply, hfree]
    rfl
  have hobserve : CallStage.next lib corpusId s measured .started =
      .observed (s.observe measured) := rfl
  have hkey : CallStage.next lib corpusId s measured (.observed (s.observe measured)) =
      .keyed (s.observe measured) s.now.templateRevision := rfl
  rw [hstart, run_step rfl hobserve, run_step rfl hkey]
  cases hhit : cacheHit s.cache (s.observe measured) s.now.templateRevision with
  | some cached =>
    have hserve : CallStage.next lib corpusId s measured
        (.keyed (s.observe measured) s.now.templateRevision) = .hit s.time cached.lens := by
      rw [CallStage.next, hhit]
    have hrestamp : CallStage.next lib corpusId s measured (.hit s.time cached.lens) =
        .returned s.time (restampEventRevision cached.lens s.eventRevision) := rfl
    rw [run_step rfl hserve, run_step rfl hrestamp, run_returned, trustedSuppressionLens_hit hhit]
  | none =>
    have hresolve : CallStage.next lib corpusId s measured
        (.keyed (s.observe measured) s.now.templateRevision) =
        .resolving (s.observe measured) s.now.templateRevision Reading.script .empty := by
      rw [CallStage.next, hhit]
    have hsettle : CallStage.next lib corpusId s measured
        (.resolving (s.observe measured) s.now.templateRevision []
          (s.now.readings s.eventRevision)) =
        .resolved (s.observe measured) s.now.templateRevision s.time
          (freshLens lib corpusId s.now s.eventRevision) := rfl
    rw [run_step rfl hresolve, show (17 : Nat) = Reading.script.length + 4 from rfl, run_readings,
      script_readings, run_step rfl hsettle, trustedSuppressionLens_miss hhit]
    by_cases hmeasured : s.observe measured = .unmeasurable
    · have hreturn : CallStage.next lib corpusId s measured
          (.resolved (s.observe measured) s.now.templateRevision s.time
            (freshLens lib corpusId s.now s.eventRevision)) =
          .returned s.time (freshLens lib corpusId s.now s.eventRevision) := by
        rw [CallStage.next, if_neg (fun h => h.1 hmeasured)]
      rw [run_step rfl hreturn, run_returned, if_neg (fun h => h hmeasured)]
    · have hconfirm : CallStage.next lib corpusId s measured
          (.resolved (s.observe measured) s.now.templateRevision s.time
            (freshLens lib corpusId s.now s.eventRevision)) =
          .confirmed (s.observe measured) s.now.templateRevision s.time
            (freshLens lib corpusId s.now s.eventRevision) := by
        rw [CallStage.next, if_pos ⟨hmeasured, rfl⟩]
      have hstore : CallStage.next lib corpusId s measured
          (.confirmed (s.observe measured) s.now.templateRevision s.time
            (freshLens lib corpusId s.now s.eventRevision)) =
          .storing (s.observe measured) s.now.templateRevision s.time
            (freshLens lib corpusId s.now s.eventRevision) := by
        rw [CallStage.next, if_pos rfl]
      rw [run_step rfl hconfirm, run_step rfl hstore, run_steps, if_pos hmeasured]
      rfl

/-- The first call resolves the lens. -/
theorem run_uninterrupted_health : ∃ cache,
    (LensSystem.opened healthMoment 1).run plainLibrary "corpus-1"
        (.start 4 :: List.replicate 20 (.step 4 true)) =
      (LensSystem.opened healthMoment 1).at 4 cache (.returned 0 healthLens) := by
  have hlens : (trustedSuppressionLens plainLibrary "corpus-1" (.opened healthMoment 1) true).1 =
      healthLens := by decide +kernel
  rw [← hlens]
  exact ⟨_, run_uninterrupted rfl true⟩

/-! ## What the lens authorizes -/

theorem trustedSuppressionLens_fresh (hs : LensInv lib corpusId s) (measured : Bool) :
    (trustedSuppressionLens lib corpusId s measured).1 =
      freshLens lib corpusId s.now s.eventRevision := by
  cases hhit : cacheHit s.cache (s.observe measured) s.now.templateRevision with
  | none => rw [trustedSuppressionLens_miss hhit]
  | some cached =>
    obtain ⟨hmeasured, hcache, hsidecar, hrevision⟩ := cacheHit_some hhit
    obtain ⟨k, m, eventRevision, hk, hidentity, hrev, hlens⟩ := hs.cache cached hcache
    have hobserve : s.observe measured = s.now.file.identity := by
      unfold LensSystem.observe at hmeasured ⊢
      split
      · rfl
      · rename_i hm
        exact absurd (if_neg hm) hmeasured
    have heq : m = s.now := (hs.precedes_now (List.mem_of_getElem? hk)).eq
      (hidentity.trans (hsidecar.trans hobserve)) (hrev.trans hrevision)
    rw [trustedSuppressionLens_hit hhit, hlens, restamp_fresh, heq]

theorem stableAttempt_readings (m : Moment) (eventRevision : Nat) :
    stableAttempt (List.ofFn (m.readings eventRevision).attempt) =
      some ⟨m.templateRevision, m.templates, m.templateRevision⟩ := by
  simp [stableAttempt, Moment.readings, maxResolutionAttempts]

theorem freshLens_cases (lib : SuppressionLibrary) (corpusId : String) (m : Moment)
    (eventRevision : Nat) :
    let lens := freshLens lib corpusId m eventRevision
    (lens.state = .unavailable ∧ lens.templateIds = []) ∨
      ∃ document, m.policy lib corpusId = .ok document ∧ lens.state = .resolved ∧
        lens.templateIds.Pairwise (· < ·) ∧
        ∀ t, t ∈ lens.templateIds ↔ Authorized document.rules m.templates t := by
  rcases resolveLens_cases lib corpusId (m.readings eventRevision) m.templateRevision with
    ⟨hstate, hnone, -⟩ | ⟨document, attempt, hfrom, hstate, -⟩
  · exact .inl ⟨hstate, hnone⟩
  · obtain rfl := Option.some.inj ((stableAttempt_readings m eventRevision).symm.trans hfrom.stable)
    exact .inr ⟨document, hfrom.loaded, hstate, hfrom.increasing, hfrom.authorized⟩

theorem freshLens_resolved (m : Moment) (eventRevision : Nat) :
    (freshLens lib corpusId m eventRevision).state = .resolved ↔
      ∃ (document : SuppressionDocument) (ids : List UInt64),
        m.policy lib corpusId = .ok document ∧ ids.Pairwise (· < ·) ∧
        ids.length ≤ maxExcludedTemplateIds ∧
        ∀ t, t ∈ ids ↔ Authorized document.rules m.templates t := by
  unfold freshLens
  rw [resolveLens_resolved]
  constructor
  · rintro ⟨document, attempt, ids, hfrom⟩
    obtain rfl := Option.some.inj ((stableAttempt_readings m eventRevision).symm.trans hfrom.stable)
    exact ⟨document, ids, hfrom.loaded, hfrom.increasing, hfrom.bounded, hfrom.authorized⟩
  · rintro ⟨document, ids, hpolicy, hincreasing, hbounded, hids⟩
    exact ⟨document, _, ids, hpolicy, stableAttempt_readings m eventRevision, rfl, rfl, hincreasing,
      hbounded, hids⟩

/-- The filter shows the row but for its exclusions. -/
def Hides (lc : Lowercase) (query : EventQuery) (row : EventRow) : Prop :=
  ∃ shown clauses, buildWhere lc { query with excludedTemplateIds := [] } = .ok shown ∧
    buildWhere lc query = .ok clauses ∧ satisfies lc shown row = true ∧
    satisfies lc clauses row = false

theorem Hides.excluded {lc : Lowercase} {query : EventQuery} {row : EventRow}
    (h : Hides lc query row) : ∃ t ∈ query.excludedTemplateIds, row.templateId = t.toNat := by
  obtain ⟨shown, clauses, hshown, hclauses, hyes, hno⟩ := h
  simp only [buildWhere, bind_ok, pure_ok] at hshown hclauses
  obtain ⟨_, -, _, -, rfl⟩ := hshown
  obtain ⟨_, -, excluded, hexcluded, rfl⟩ := hclauses
  rw [← excluded_ok hexcluded]
  by_contra hout
  rw [Bool.eq_false_iff] at hno
  apply hno
  have hnotIn : (Clause.templateNotIn excluded).truth lc row = some true := by
    simp [Clause.truth, Sql.notIn, hout]
  simp only [satisfies, List.map_append, allTrue_append, allTrue_unlessEmpty, hnotIn, true_or,
    or_true, and_true] at hyes ⊢
  exact hyes

theorem resolveLens_refused (revision : Nat)
    (h : (∀ document, loadDocumentFromRoot lib r.root r.read corpusId r.sidecar ≠ .ok document) ∨
      ∀ attempt, stableAttempt (List.ofFn r.attempt) = some attempt →
        r.revisionBefore ≠ attempt.after ∨ r.revisionAfter ≠ attempt.after) :
    (resolveLens lib corpusId r revision).templateIds = [] := by
  rcases resolveLens_cases lib corpusId r revision with ⟨-, hnone, -⟩ | ⟨document, attempt, hfrom, -⟩
  · exact hnone
  · rcases h with hload | hstable
    · exact absurd hfrom.loaded (hload document)
    · rcases hstable attempt hfrom.stable with hbefore | hafter
      · exact absurd hfrom.before hbefore
      · exact absurd hfrom.after hafter

/-- Whatever a resolution reads, it authorizes exactly what its document and its stable attempt
authorize, or nothing. -/
theorem resolveLens_exact (lib : SuppressionLibrary) (corpusId : String) (r : LensReadings)
    (revision : Nat) :
    let lens := resolveLens lib corpusId r revision
    (lens.state = .resolved → ∃ document attempt,
      ResolvedFrom lib corpusId r document attempt lens.templateIds) ∧
    (lens.state = .unavailable → lens.templateIds = []) := by
  intro lens
  rcases resolveLens_cases lib corpusId r revision with
    ⟨hstate, hnone, -⟩ | ⟨document, attempt, hfrom, hstate, -⟩
  · refine ⟨fun h => ?_, fun _ => hnone⟩
    cases hstate.symm.trans h
  · refine ⟨fun _ => ⟨document, attempt, hfrom⟩, fun h => ?_⟩
    cases hstate.symm.trans h

theorem applied_authorized {lens : TrustedSuppressionLens} {P : UInt64 → Prop}
    (hincreasing : lens.templateIds.Pairwise (· < ·)) (hids : ∀ t ∈ lens.templateIds, P t)
    {lc : Lowercase} {query : EventQuery} {row : EventRow}
    (h : Hides lc (applyLensToQuery lens query).1 row) : ∃ t, row.templateId = t.toNat ∧ P t := by
  obtain ⟨-, hmem, -⟩ := applyLensToQuery_spec hincreasing query
  obtain ⟨t, ht, htemplate⟩ := h.excluded
  exact ⟨t, htemplate, hids t ((hmem t).mp ht).2⟩

theorem trusted_lens_exact (lib : SuppressionLibrary) (corpusId : String) (first : Moment)
    (eventRevision : Nat) (actions : List LensAction) (measured : Bool) :
    let s := (LensSystem.opened first eventRevision).run lib corpusId actions
    let lens := (trustedSuppressionLens lib corpusId s measured).1
    (lens.state = .resolved ↔ ∃ (document : SuppressionDocument) (ids : List UInt64),
      s.now.policy lib corpusId = .ok document ∧ ids.Pairwise (· < ·) ∧
      ids.length ≤ maxExcludedTemplateIds ∧
      ∀ t, t ∈ ids ↔ Authorized document.rules s.now.templates t) ∧
    (lens.state = .resolved → ∃ document, s.now.policy lib corpusId = .ok document ∧
      ∀ t, t ∈ lens.templateIds ↔ Authorized document.rules s.now.templates t) ∧
    (lens.state = .unavailable → lens.templateIds = []) ∧
    (∀ (r : LensReadings) (revision : Nat),
      ((resolveLens lib corpusId r revision).state = .resolved → ∃ document attempt,
        ResolvedFrom lib corpusId r document attempt
          (resolveLens lib corpusId r revision).templateIds) ∧
      ((resolveLens lib corpusId r revision).state = .unavailable →
        (resolveLens lib corpusId r revision).templateIds = []) ∧
      (((∀ document, loadDocumentFromRoot lib r.root r.read corpusId r.sidecar ≠ .ok document) ∨
        ∀ attempt, stableAttempt (List.ofFn r.attempt) = some attempt →
          r.revisionBefore ≠ attempt.after ∨ r.revisionAfter ≠ attempt.after) →
        (resolveLens lib corpusId r revision).templateIds = [])) ∧
    ∀ query : EventQuery,
      let applied := applyTrustedSuppressionLens lib corpusId s measured query
      applied.1.excludedTemplateIds.Pairwise (· < ·) ∧
      (∀ t, t ∈ applied.1.excludedTemplateIds ↔
        t ∈ query.excludedTemplateIds ∧ t ∈ lens.templateIds) ∧
      applied.2.requested = query.excludedTemplateIds.dedup.length ∧
      applied.2.effective = applied.1.excludedTemplateIds.length ∧
      applied.2.requested = applied.2.effective + applied.2.dropped ∧
      ∀ (lc : Lowercase) (row : EventRow), Hides lc applied.1 row →
        ∃ t, row.templateId = t.toNat ∧ ∃ document, s.now.policy lib corpusId = .ok document ∧
          Authorized document.rules s.now.templates t := by
  intro s lens
  have hs : LensInv lib corpusId s := (LensInv.opened lib corpusId first eventRevision).run actions
  have hlens : lens = freshLens lib corpusId s.now s.eventRevision :=
    trustedSuppressionLens_fresh hs measured
  have hcases := freshLens_cases lib corpusId s.now s.eventRevision
  rw [← hlens] at hcases
  -- in both cases the templates are increasing and authorized
  have hincreasing : lens.templateIds.Pairwise (· < ·) := by
    rcases hcases with ⟨-, hnone⟩ | ⟨document, -, -, hincreasing, -⟩
    · rw [hnone]
      exact .nil
    · exact hincreasing
  have hauthorized : ∀ t ∈ lens.templateIds, ∃ document,
      s.now.policy lib corpusId = .ok document ∧
        Authorized document.rules s.now.templates t := by
    rcases hcases with ⟨-, hnone⟩ | ⟨document, hpolicy, -, -, hids⟩
    · simp [hnone]
    · exact fun t ht => ⟨document, hpolicy, (hids t).mp ht⟩
  refine ⟨hlens ▸ freshLens_resolved s.now s.eventRevision, fun hstate => ?_, fun hstate => ?_,
    fun r revision => ?_, fun query => ?_⟩
  · rcases hcases with ⟨hnone, -⟩ | ⟨document, hpolicy, -, -, hids⟩
    · cases hnone.symm.trans hstate
    · exact ⟨document, hpolicy, hids⟩
  · rcases hcases with ⟨-, hnone⟩ | ⟨document, -, hresolved, -⟩
    · exact hnone
    · cases hresolved.symm.trans hstate
  · obtain ⟨hresolved, hnone⟩ := resolveLens_exact lib corpusId r revision
    exact ⟨hresolved, hnone, resolveLens_refused revision⟩
  · obtain ⟨hsorted, hmem, -, hrequested, heffective, hsum, -⟩ :=
      applyLensToQuery_spec hincreasing query
    exact ⟨hsorted, hmem, hrequested, heffective, hsum,
      fun lc row hhides => applied_authorized hincreasing hauthorized hhides⟩

/-- A request that hides template 7 twice, and templates that no rule targets. -/
theorem trusted_lens_exact_health :
    (trustedSuppressionLens plainLibrary "corpus-1" (.opened healthMoment 1) true).1 = healthLens ∧
    (∃ document, healthMoment.policy plainLibrary "corpus-1" = .ok document ∧
      Authorized document.rules healthMoment.templates 7) ∧
    (applyTrustedSuppressionLens plainLibrary "corpus-1" (.opened healthMoment 1) true
      { EventQuery.default with excludedTemplateIds := [9, 7, 3, 7] }).2 =
      { requested := 3, effective := 1, dropped := 2, state := .resolved } := by
  have hlens : (trustedSuppressionLens plainLibrary "corpus-1" (.opened healthMoment 1) true).1 =
      healthLens := by decide +kernel
  refine ⟨hlens, ?_, by decide +kernel⟩
  obtain ⟨-, hexact, -⟩ := trusted_lens_exact plainLibrary "corpus-1" healthMoment 1 [] true
  obtain ⟨document, hpolicy, hids⟩ := hexact (by decide +kernel)
  refine ⟨document, hpolicy, (hids 7).mp ?_⟩
  show (7 : UInt64) ∈
    (trustedSuppressionLens plainLibrary "corpus-1" (.opened healthMoment 1) true).1.templateIds
  rw [hlens]
  decide

end ContextDesk.LogAnalysis
