import ContextDesk.LogAnalysis.SuppressionLens

/-!
# What a lens authorizes

`Authorized` says when the durable policy authorizes hiding a template: exactly one enabled rule
targets it, the predicate of that rule is valid, and its fingerprint is the current one. A resolved
lens consists of exactly these templates (`resolvedTemplates_ok`), an unavailable one of none, and
a request keeps exactly its authorized exclusions (`applyLensToQuery_spec`).
-/

namespace ContextDesk.LogAnalysis

open Lib
open scoped Lib.WordOrder

variable {lib : SuppressionLibrary} {corpusId : String}

/-- The policy authorizes hiding the template. -/
structure Authorized (rules : List SuppressionRule) (templates : UInt64 → Option String)
    (t : UInt64) : Prop where
  single : enabledTargeting rules t = 1
  rule : ∃ rule ∈ rules, rule.state = .enabled ∧ rule.predicate.templateId = t ∧
    validatePredicate rule.predicate = .ok () ∧
    templates t = some rule.predicate.templateFingerprint

/-! ## Rules -/

variable {rule : SuppressionRule}

theorem isEnabled_iff : rule.isEnabled = true ↔ rule.state = .enabled :=
  decide_eq_true_iff

theorem fingerprint_bytes {predicate : SuppressionTemplatePredicate}
    (h : validatePredicate predicate = .ok ()) :
    predicate.templateFingerprint.utf8ByteSize ≤ maxTemplateFingerprintBytes := by
  simp only [validatePredicate, validateBoundedText, bind_ok, ensure_ok, not_or] at h
  obtain ⟨_, -, _, ⟨-, hbytes⟩, -⟩ := h
  omega

theorem templateFingerprints_eq_some {templates : UInt64 → Option String} {maxBytes : Nat}
    {id : UInt64} {hash : String} :
    templateFingerprints templates maxBytes id = some hash ↔
      templates id = some hash ∧ hash.utf8ByteSize ≤ maxBytes := by
  unfold templateFingerprints
  rw [Option.filter_eq_some_iff, decide_eq_true_eq]

variable {rules : List SuppressionRule}

theorem resolveRule_active {fingerprints : UInt64 → Option String} (h : rule.state = .enabled) :
    (resolveRule rules fingerprints rule).kind ≠ .inactive := by
  unfold resolveRule
  rw [h]
  dsimp only
  repeat' split
  all_goals simp

theorem resolveRule_matches {fingerprints : UInt64 → Option String} (h : rule.state = .enabled) :
    (resolveRule rules fingerprints rule).kind = .matchesCurrent ↔
      validatePredicate rule.predicate = .ok () ∧
        enabledTargeting rules rule.predicate.templateId ≤ 1 ∧
        fingerprints rule.predicate.templateId = some rule.predicate.templateFingerprint := by
  unfold resolveRule
  rw [h]
  dsimp only
  cases hp : validatePredicate rule.predicate with
  | error e => simp
  | ok u =>
    by_cases hc : enabledTargeting rules rule.predicate.templateId > 1
    · simp [hc, Nat.not_le.mpr hc]
    · cases hf : fingerprints rule.predicate.templateId with
      | none => simp [hc]
      | some current =>
        by_cases heq : current = rule.predicate.templateFingerprint
        · simp [hc, heq, Nat.le_of_not_lt hc]
        · simp [hc, heq]

theorem matchingTemplates_resolved {resolve : SuppressionRule → SuppressionRuleResolution}
    (hactive : ∀ rule ∈ rules, rule.state = .enabled → (resolve rule).kind ≠ .inactive) :
    matchingTemplates (rules.map fun rule => { rule with resolution := some (resolve rule) }) =
      .ok ((rules.filter fun rule =>
        rule.isEnabled && (resolve rule).kind == .matchesCurrent).map
          fun rule => rule.predicate.templateId) := by
  induction rules with
  | nil => rfl
  | cons rule rest ih =>
    have hrest := ih fun other hother => hactive other (List.mem_cons_of_mem _ hother)
    rw [List.map_cons, matchingTemplates]
    by_cases he : rule.isEnabled = true
    · have hkind := hactive rule List.mem_cons_self (isEnabled_iff.mp he)
      have he' : ({ rule with resolution := some (resolve rule) } : SuppressionRule).isEnabled =
          true := he
      rw [he']
      simp only [Bool.not_true, Bool.false_eq_true, if_false, require]
      cases hk : (resolve rule).kind <;>
        simp_all [bind, Except.bind, pure, Except.pure]
    · have he' : ({ rule with resolution := some (resolve rule) } : SuppressionRule).isEnabled =
          false := Bool.eq_false_iff.mpr he
      rw [he']
      simp only [Bool.not_false, if_true, hrest]
      simp [he]

theorem enabledTargeting_pos (hmem : rule ∈ rules) (h : rule.state = .enabled) :
    0 < enabledTargeting rules rule.predicate.templateId := by
  refine List.countP_pos_iff.mpr ⟨rule, hmem, ?_⟩
  simp [isEnabled_iff.mpr h]

theorem authorized_iff {templates : UInt64 → Option String} {t : UInt64} :
    (∃ rule ∈ rules, rule.state = .enabled ∧
      (resolveRule rules (fun id => if id ∈ lookedUp rules then
        templateFingerprints templates maxTemplateFingerprintBytes id else none) rule).kind =
          .matchesCurrent ∧ rule.predicate.templateId = t) ↔
      Authorized rules templates t := by
  constructor
  · rintro ⟨rule, hmem, hstate, hkind, rfl⟩
    obtain ⟨hvalid, hone, hprint⟩ := (resolveRule_matches hstate).mp hkind
    split at hprint
    · have hpos := enabledTargeting_pos hmem hstate
      exact ⟨by omega, rule, hmem, hstate, rfl, hvalid, (templateFingerprints_eq_some.mp hprint).1⟩
    · cases hprint
  · rintro ⟨hsingle, rule, hmem, hstate, rfl, hvalid, hprint⟩
    refine ⟨rule, hmem, hstate, (resolveRule_matches hstate).mpr ⟨hvalid, by omega, ?_⟩, rfl⟩
    have hlooked : rule.predicate.templateId ∈ lookedUp rules := by
      refine List.mem_map.mpr ⟨rule, List.mem_filter.mpr ⟨hmem, ?_⟩, rfl⟩
      simp [isEnabled_iff.mpr hstate, hvalid, Except.isOk, Except.toBool]
    rw [if_pos hlooked]
    exact templateFingerprints_eq_some.mpr ⟨hprint, fingerprint_bytes hvalid⟩

/-! ## The lens -/

/-- A resolution is made of one document and one stable attempt that the revision outlived. -/
structure ResolvedFrom (lib : SuppressionLibrary) (corpusId : String) (r : LensReadings)
    (document : SuppressionDocument) (attempt : TemplateAttempt) (ids : List UInt64) : Prop where
  loaded : loadDocumentFromRoot lib r.root r.read corpusId r.sidecar = .ok document
  stable : stableAttempt (List.ofFn r.attempt) = some attempt
  before : r.revisionBefore = attempt.after
  after : r.revisionAfter = attempt.after
  increasing : ids.Pairwise (· < ·)
  bounded : ids.length ≤ maxExcludedTemplateIds
  authorized : ∀ t, t ∈ ids ↔ Authorized document.rules attempt.templates t

variable {r : LensReadings}

theorem loaded_corpusId {document : SuppressionDocument}
    (h : loadDocumentFromRoot lib r.root r.read corpusId r.sidecar = .ok document) :
    document.corpusId = corpusId := by
  simp only [loadDocumentFromRoot, bind_ok] at h
  obtain ⟨_, -, _, -, _, -, h⟩ := h
  cases hs : r.sidecar with
  | none =>
    rw [hs] at h
    obtain rfl := Except.ok.inj h
    rfl
  | some stored =>
    rw [hs] at h
    simp only [bind_ok, pure_ok, validateDocument_ok] at h
    obtain ⟨_, -, _, hvalid, rfl⟩ := h
    exact hvalid.corpus

theorem matchingTemplates_authorized (rules : List SuppressionRule)
    (templates : UInt64 → Option String) :
    ∃ ids, matchingTemplates (rules.map fun rule =>
        { rule with
          resolution := some (resolveRule rules (fun id => if id ∈ lookedUp rules then
            templateFingerprints templates maxTemplateFingerprintBytes id else none) rule) }) =
          .ok ids ∧
      ∀ t, t ∈ ids ↔ Authorized rules templates t := by
  refine ⟨_, matchingTemplates_resolved fun rule _ h => resolveRule_active h, fun t => ?_⟩
  rw [← authorized_iff]
  simp only [List.mem_map, List.mem_filter, Bool.and_eq_true, isEnabled_iff, beq_iff_eq]
  constructor
  · rintro ⟨rule, ⟨hmem, hstate, hkind⟩, ht⟩
    exact ⟨rule, hmem, hstate, hkind, ht⟩
  · rintro ⟨rule, hmem, hstate, hkind, ht⟩
    exact ⟨rule, ⟨hmem, hstate, hkind⟩, ht⟩

variable {ids : List UInt64}

theorem resolvedTemplates_ok {document : SuppressionDocument}
    (h : resolvedTemplates lib corpusId r = .ok (document, ids)) :
    ∃ loaded attempt, ResolvedFrom lib corpusId r loaded attempt ids ∧
      document.revision = loaded.revision := by
  simp only [resolvedTemplates, loadSuppressionDocument, resolveRuleStatuses,
    enabledTemplateIdsForCorpus, enabledTemplateIds, bind_ok, pure_ok, ensure_ok, require_ok,
    Prod.mk.injEq] at h
  obtain ⟨_, ⟨loaded, hload, attempt, hstable, rfl⟩, _, -, _,
    ⟨_, hrev, _, hbefore, _, ⟨matching, hmatching, _, hlen, rfl⟩, _, hafter, rfl⟩, rfl, rfl⟩ := h
  obtain rfl := Option.some.inj hrev
  obtain ⟨authorized, hok, hmem⟩ := matchingTemplates_authorized loaded.rules attempt.templates
  obtain rfl := Except.ok.inj (hmatching.symm.trans hok)
  refine ⟨loaded, attempt, ⟨hload, hstable, hbefore, hafter, sortDedup_increasing _,
    Nat.le_of_not_lt hlen, fun t => ?_⟩, rfl⟩
  rw [mem_sortDedup, hmem]

theorem resolvedTemplates_of {loaded : SuppressionDocument} {attempt : TemplateAttempt}
    (h : ResolvedFrom lib corpusId r loaded attempt ids) :
    ∃ document, resolvedTemplates lib corpusId r = .ok (document, ids) ∧
      document.revision = loaded.revision := by
  obtain ⟨matching, hok, hmem⟩ := matchingTemplates_authorized loaded.rules attempt.templates
  have hids : sortDedup matching = ids := by
    refine List.Pairwise.eq_of_mem_iff (sortDedup_increasing matching) h.increasing fun t => ?_
    rw [mem_sortDedup, hmem, h.authorized]
  have hcorpus : loaded.corpusId = corpusId := loaded_corpusId h.loaded
  have hbounded : ¬ (sortDedup matching).length > maxExcludedTemplateIds := by
    rw [hids]
    exact Nat.not_lt.mpr h.bounded
  simp only [resolvedTemplates, loadSuppressionDocument, resolveRuleStatuses,
    enabledTemplateIdsForCorpus, enabledTemplateIds, bind_ok, pure_ok, ensure_ok, require_ok,
    Prod.mk.injEq]
  exact ⟨_, ⟨_, ⟨loaded, h.loaded, attempt, h.stable, rfl⟩, (), hcorpus, ids,
    ⟨attempt.after, rfl, (), h.before, ids, ⟨matching, hok, (), hbounded, hids⟩, (), h.after, rfl⟩,
    rfl, rfl⟩, rfl⟩

theorem resolveLens_of {loaded : SuppressionDocument} {attempt : TemplateAttempt} (revision : Nat)
    (h : ResolvedFrom lib corpusId r loaded attempt ids) :
    resolveLens lib corpusId r revision =
      { corpusId := corpusId
        state := .resolved
        reason := none
        templateIds := ids
        policyRevision := some loaded.revision
        eventRevision := r.eventRevision
        templateAnalysisRevision := revision } := by
  obtain ⟨document, hok, hrev⟩ := resolvedTemplates_of h
  rw [resolveLens, hok, ← hrev]

theorem resolveLens_cases (lib : SuppressionLibrary) (corpusId : String) (r : LensReadings)
    (revision : Nat) :
    let lens := resolveLens lib corpusId r revision
    (lens.state = .unavailable ∧ lens.templateIds = [] ∧ lens.policyRevision = none) ∨
      ∃ loaded attempt, ResolvedFrom lib corpusId r loaded attempt lens.templateIds ∧
        lens.state = .resolved ∧ lens.policyRevision = some loaded.revision := by
  unfold resolveLens
  cases h : resolvedTemplates lib corpusId r with
  | error e => exact .inl ⟨rfl, rfl, rfl⟩
  | ok result =>
    obtain ⟨loaded, attempt, hfrom, hrev⟩ := resolvedTemplates_ok h
    exact .inr ⟨loaded, attempt, hfrom, rfl, congrArg some hrev⟩

theorem resolveLens_resolved {revision : Nat} :
    (resolveLens lib corpusId r revision).state = .resolved ↔
      ∃ loaded attempt ids, ResolvedFrom lib corpusId r loaded attempt ids := by
  constructor
  · intro hstate
    rcases resolveLens_cases lib corpusId r revision with ⟨h, -⟩ | ⟨loaded, attempt, hfrom, -⟩
    · rw [h] at hstate
      cases hstate
    · exact ⟨loaded, attempt, _, hfrom⟩
  · rintro ⟨loaded, attempt, ids, hfrom⟩
    rw [resolveLens_of revision hfrom]

theorem resolveLens_revision (lib : SuppressionLibrary) (corpusId : String) (r : LensReadings)
    (revision : Nat) :
    (resolveLens lib corpusId r revision).templateAnalysisRevision = revision := by
  unfold resolveLens
  split <;> rfl

/-! ## Requests -/

theorem applyLensToQuery_spec {lens : TrustedSuppressionLens}
    (hlens : lens.templateIds.Pairwise (· < ·)) (query : EventQuery) :
    let applied := applyLensToQuery lens query
    applied.1.excludedTemplateIds.Pairwise (· < ·) ∧
      (∀ t, t ∈ applied.1.excludedTemplateIds ↔
        t ∈ query.excludedTemplateIds ∧ t ∈ lens.templateIds) ∧
      { applied.1 with excludedTemplateIds := query.excludedTemplateIds } = query ∧
      applied.2.requested = query.excludedTemplateIds.dedup.length ∧
      applied.2.effective = applied.1.excludedTemplateIds.length ∧
      applied.2.requested = applied.2.effective + applied.2.dropped ∧
      applied.2.state = lens.state := by
  have hsorted := sortDedup_increasing query.excludedTemplateIds
  refine ⟨hsorted.filter _, fun t => ?_, rfl, ?_, rfl, ?_, rfl⟩
  · show t ∈ (sortDedup query.excludedTemplateIds).filter lens.authorizes ↔ _
    rw [List.mem_filter, mem_sortDedup, TrustedSuppressionLens.authorizes, binarySearch_iff hlens]
  · have hnodup : (sortDedup query.excludedTemplateIds).Nodup := hsorted.imp fun h => ne_of_lt h
    refine ((List.perm_ext_iff_of_nodup hnodup (List.nodup_dedup _)).mpr fun t => ?_).length_eq
    rw [mem_sortDedup, List.mem_dedup]
  · have := List.length_filter_le lens.authorizes (sortDedup query.excludedTemplateIds)
    exact (Nat.add_sub_cancel' this).symm

end ContextDesk.LogAnalysis
