import ContextDesk.LogAnalysis.SuppressionRuns

/-!
# The audit reserve

Every reached document has room in its audit to disable and to remove each of its live rules. A
disable or a removal takes one entry and gives at least one entry of the reserve back
(`transition_reserve`), so its capacity check passes, and in quiet surroundings (`QuietFor`) the
call returns (`mutate_returns`).
-/

namespace ContextDesk.LogAnalysis

open Lib

variable {lib : SuppressionLibrary} {corpusId : String} {env : SuppressionSurroundings}
  {sidecar : Option SuppressionDocument}

/-- Nothing outside the document stands in the way of a lifecycle mutation. -/
structure QuietFor (lib : SuppressionLibrary) (env : SuppressionSurroundings)
    (d : SuppressionDocument) : Prop where
  guard : env.guard = none
  root : env.root = none
  read : env.read = none
  publication : env.publication = { before := none, after := none }
  revision : d.revision + 1 ≤ u64Max
  auditId : lib.isUuidV7 env.auditId = true
  fresh : ∀ entry ∈ d.audit, entry.id ≠ env.auditId
  clock : ∀ rule ∈ d.rules, rule.createdAt ≤ env.now
  fits : ∀ i state action, lib.documentBytes
    (mutatedDocument env d i state action (d.revision + 1)).2 ≤ maxSidecarBytes

variable {next : SuppressionRuleState} {action : SuppressionAuditAction}

theorem transition_reserve {state : SuppressionRuleState} {mutation : SuppressionRuleMutation}
    (hm : mutation ≠ .reenable) (h : transition state mutation = .ok (next, action)) :
    next.reserve + 1 ≤ state.reserve ∧ next ≠ .enabled := by
  cases state <;> cases mutation <;> cases h <;> first | exact absurd rfl hm | decide

theorem findFinIdx?_id {rules : List SuppressionRule}
    (hids : (rules.map SuppressionRule.id).Nodup) (i : Fin rules.length) :
    rules.findFinIdx? (fun rule => rule.id == (rules.get i).id) = some i := by
  rw [List.findFinIdx?_eq_some_iff]
  refine ⟨beq_self_eq_true _, fun j hj heq => ?_⟩
  have hsame : (rules.get j).id = (rules.get i).id := beq_iff_eq.mp heq
  have hji : j = i := by
    have hinj := List.nodup_iff_injective_get.mp hids
    have := @hinj ⟨j, by simp⟩ ⟨i, by simp⟩ (by simpa using hsame)
    exact Fin.ext (Fin.mk.inj this)
  omega

theorem ReachedInv.load_ok {root read : Option String} (h : ReachedInv lib corpusId sidecar)
    (hroot : root = none) (hread : read = none) :
    loadDocumentFromRoot lib root read corpusId sidecar =
      .ok (currentDocument corpusId sidecar) := by
  simp only [loadDocumentFromRoot, bind_ok, refuse_ok]
  refine ⟨(), hroot, (), h.valid.corpusText, (), hread, ?_⟩
  cases sidecar with
  | none => rfl
  | some stored =>
    have hfits := h.fits stored rfl
    simp only [(h.durable stored rfl).clear_eq, bind_ok, ensure_ok, pure_ok, validateDocument_ok]
    exact ⟨(), by omega, (), h.valid, rfl⟩

variable {d : SuppressionDocument}

theorem ValidDocument.capacity_ok (h : ValidDocument lib corpusId d) {i : Fin d.rules.length}
    (hreserve : next.reserve + 1 ≤ (d.rules.get i).state.reserve) :
    ∃ reserve, reversalAuditReserveStates ((d.rules.map SuppressionRule.state).set i next) =
        .ok reserve ∧
      ensureAuditCapacityFor d 1 reserve = .ok () := by
  have hset := reserveOf_set d.rules i { d.rules.get i with state := next }
  have hstates : (((d.rules.map SuppressionRule.state).set i next).map
      SuppressionRuleState.reserve).sum =
      reserveOf (d.rules.set i { d.rules.get i with state := next }) := by
    unfold reserveOf
    rw [List.map_set, List.map_set, List.map_map]
    rfl
  have hcap := h.reserve
  have hstate : ({ d.rules.get i with state := next } : SuppressionRule).state.reserve =
      next.reserve := rfl
  rw [hstate] at hset
  refine ⟨_, reversalAuditReserveStates_ok.mpr ⟨rfl, ?_⟩, ensureAuditCapacityFor_ok.mpr ?_⟩
  · rw [hstates]
    unfold usizeMax
    unfold maxSuppressionAuditEntries at hcap
    omega
  · rw [hstates]
    omega

theorem ValidDocument.mutated (h : ValidDocument lib corpusId d) (hq : QuietFor lib env d)
    {i : Fin d.rules.length} (hreserve : next.reserve + 1 ≤ (d.rules.get i).state.reserve)
    (hnext : next ≠ .enabled) :
    ValidDocument lib corpusId (mutatedDocument env d i next action (d.revision + 1)).2 := by
  have hmem := List.get_mem d.rules i
  have hold := h.rules _ hmem
  refine h.changed ⟨hold.id, hold.texts, hq.clock (d.rules.get i) hmem, fun henabled => absurd henabled hnext⟩
    rfl hreserve ⟨hq.auditId, Nat.le_refl _, fun ruleId hrule => ?_, fun token htoken => ?_⟩ rfl
    hq.fresh
  · obtain rfl := Option.mem_some_iff.mp hrule
    exact hold.id
  · cases htoken

/-- In quiet surroundings a disable or a removal returns. -/
theorem mutate_returns (hq : QuietFor lib env d)
    (hload : loadDocumentFromRoot lib env.root env.read corpusId sidecar = .ok d)
    (hdurable : Durable d) (hvalid : ValidDocument lib corpusId d) {i : Fin d.rules.length}
    {mutation : SuppressionRuleMutation} (hm : mutation ≠ .reenable)
    (ht : transition (d.rules.get i).state mutation = .ok (next, action)) :
    (SuppressionCall.mutate d.revision (d.rules.get i).id mutation).run lib corpusId env sidecar =
      (.ok (), some (mutatedDocument env d i next action (d.revision + 1)).2) := by
  obtain ⟨hreserve, hnext⟩ := transition_reserve hm ht
  obtain ⟨reserve, hstates, hcapacity⟩ := hvalid.capacity_ok hreserve
  have hchange : DocumentChange d (mutatedDocument env d i next action (d.revision + 1)).2 :=
    .changed rfl (transition_live ht) rfl rfl
  have hclear := (hchange.durable hdurable).clear_eq
  have hcheck : checkPersisted lib env.root
      (mutatedDocument env d i next action (d.revision + 1)).2 = .ok () := by
    have hfits := hq.fits i next action
    have hcorpus : (mutatedDocument env d i next action (d.revision + 1)).2.corpusId = corpusId :=
      hvalid.corpus
    simp only [checkPersisted, bind_ok, refuse_ok, ensure_ok, validateDocument_ok, hcorpus]
    exact ⟨(), hq.root, (), hvalid.mutated hq hreserve hnext, by omega⟩
  have hrule := (hvalid.rules _ (List.get_mem d.rules i)).id
  have hcurrent : ensureReenableCurrent (env.templates 0) (d.rules.get i) mutation = .ok () := by
    unfold ensureReenableCurrent
    rw [if_neg hm]
    rfl
  have hpublished : mutateRuleFromRoot lib env corpusId d.revision (d.rules.get i).id mutation
      sidecar = (.ok (mutatedDocument env d i next action (d.revision + 1)).1,
        some (mutatedDocument env d i next action (d.revision + 1)).2) := by
    refine publishing_ok sidecar ?_ hcheck (by rw [hq.publication]) (by rw [hq.publication])
    simp only [bind_ok, pure_ok, refuse_ok, require_ok, validateUuidV7_ok]
    refine ⟨mutatedDocument env d i next action (d.revision + 1), ⟨(), hrule, (), hq.guard, d,
      hload, (), ensure_ok.mpr rfl, i, findFinIdx?_id hvalid.ids i, (next, action), ht, (), hcurrent,
      reserve, hstates, (), hcapacity, d.revision + 1,
      nextSuppressionRevision_ok.mpr ⟨hq.revision, rfl⟩, rfl⟩, ?_⟩
    rw [hclear]
  show forgetValue _ = _
  rw [hpublished]
  rfl

/-- In every reached document the audit has room for the reversal of all live rules; a disable or a
removal of a live rule passes its capacity check and, in quiet surroundings, returns. -/
theorem reversals_never_refused
    (hid : validateBoundedText "corpus id" corpusId maxCorpusIdBytes = .ok ())
    (calls : List (SuppressionSurroundings × SuppressionCall)) :
    (reachedDocument lib corpusId calls).audit.length +
        2 * (reachedDocument lib corpusId calls).rules.countP (fun r => r.state = .enabled) +
        (reachedDocument lib corpusId calls).rules.countP (fun r => r.state = .disabled) ≤
      maxSuppressionAuditEntries ∧
    ∀ (i : Fin (reachedDocument lib corpusId calls).rules.length) mutation next action,
      mutation ≠ .reenable →
      transition ((reachedDocument lib corpusId calls).rules.get i).state mutation =
        .ok (next, action) →
      (∃ reserve,
        reversalAuditReserveStates (((reachedDocument lib corpusId calls).rules.map
          SuppressionRule.state).set i next) = .ok reserve ∧
        ensureAuditCapacityFor (reachedDocument lib corpusId calls) 1 reserve = .ok ()) ∧
      ∀ env, QuietFor lib env (reachedDocument lib corpusId calls) →
        (SuppressionCall.mutate (reachedDocument lib corpusId calls).revision
            ((reachedDocument lib corpusId calls).rules.get i).id mutation).run lib corpusId env
            (runCalls lib corpusId calls none) =
          (.ok (), some (mutatedDocument env (reachedDocument lib corpusId calls) i next action
            ((reachedDocument lib corpusId calls).revision + 1)).2) := by
  have h : ReachedInv lib corpusId (runCalls lib corpusId calls none) :=
    (reachedInv_none hid).runCalls calls
  have hvalid : ValidDocument lib corpusId (reachedDocument lib corpusId calls) := h.valid
  refine ⟨?_, fun i mutation next action hm ht => ⟨?_, fun env hq => ?_⟩⟩
  · have := hvalid.reserve
    rw [reserveOf_eq] at this
    omega
  · exact hvalid.capacity_ok (transition_reserve hm ht).1
  · have hload := h.load_ok hq.root hq.read
    exact mutate_returns hq hload (load_eq h.durable hload).2.2 hvalid hm ht

/-- The preview of a health check, and its activation. -/
def healthCalls : List (SuppressionSurroundings × SuppressionCall) :=
  [(quietSurroundings, healthPreview),
    ({ quietSurroundings with auditId := "018bcfe5-687b-7000-8000-000000000004" },
      .activate 1 "018bcfe5-687b-7000-8000-000000000001")]

theorem reversals_never_refused_health :
    ((reachedDocument plainLibrary "corpus-1" healthCalls).rules.map SuppressionRule.state =
      [.enabled]) ∧
    ∃ i : Fin (reachedDocument plainLibrary "corpus-1" healthCalls).rules.length, ∃ reserve,
      reversalAuditReserveStates (((reachedDocument plainLibrary "corpus-1" healthCalls).rules.map
        SuppressionRule.state).set i .disabled) = .ok reserve ∧
      ensureAuditCapacityFor (reachedDocument plainLibrary "corpus-1" healthCalls) 1 reserve =
        .ok () := by
  have hid : validateBoundedText "corpus id" "corpus-1" maxCorpusIdBytes = .ok () := by decide
  have hlen : 0 < (reachedDocument plainLibrary "corpus-1" healthCalls).rules.length := by
    decide +kernel
  have ht : ∀ h : 0 < (reachedDocument plainLibrary "corpus-1" healthCalls).rules.length,
      transition ((reachedDocument plainLibrary "corpus-1" healthCalls).rules.get ⟨0, h⟩).state
        .disable = .ok (.disabled, .disabled) := by decide +kernel
  refine ⟨by decide +kernel, ⟨0, hlen⟩, ?_⟩
  exact ((reversals_never_refused hid healthCalls).2 ⟨0, hlen⟩ .disable .disabled .disabled
    (by decide) (ht hlen)).1

end ContextDesk.LogAnalysis
