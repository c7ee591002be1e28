import ContextDesk.LogAnalysis.SuppressionValid

/-!
# Runs of suppression calls

Several clients preview, activate and change rules in any order; the mutation guard makes it a
sequence of calls on one sidecar, each in its own surroundings (`runCalls`). `DocumentChange` are
the three ways in which a document changes, and `run_cases` says that a call either leaves the
sidecar or publishes such a change of the document. `SuppressionInv` holds of every reached
document.
-/

namespace ContextDesk.LogAnalysis

open Lib List

inductive SuppressionCall where
  | preview (expectedRevision : Nat) (input : NewSuppressionPreview)
  | activate (expectedRevision : Nat) (previewToken : String)
  | mutate (expectedRevision : Nat) (ruleId : String) (mutation : SuppressionRuleMutation)
  deriving DecidableEq

def forgetValue {α σ : Type} (out : CoreResult α × σ) : CoreResult Unit × σ :=
  (out.1.map fun _ => (), out.2)

def SuppressionCall.run (lib : SuppressionLibrary) (corpusId : String)
    (env : SuppressionSurroundings) (sidecar : Option SuppressionDocument) :
    SuppressionCall → CoreResult Unit × Option SuppressionDocument
  | preview expectedRevision input =>
    forgetValue (previewFromRoot lib env corpusId expectedRevision input sidecar)
  | activate expectedRevision previewToken =>
    forgetValue (activateFromRoot lib env corpusId expectedRevision previewToken sidecar)
  | mutate expectedRevision ruleId mutation =>
    forgetValue (mutateRuleFromRoot lib env corpusId expectedRevision ruleId mutation sidecar)

def runCalls (lib : SuppressionLibrary) (corpusId : String)
    (calls : List (SuppressionSurroundings × SuppressionCall))
    (sidecar : Option SuppressionDocument) : Option SuppressionDocument :=
  calls.foldl (fun s step => (step.2.run lib corpusId step.1 s).2) sidecar

/-- The document of a corpus: what the sidecar holds, or the empty one. -/
def currentDocument (corpusId : String) (sidecar : Option SuppressionDocument) :
    SuppressionDocument :=
  sidecar.getD (emptyDocument corpusId)

variable {lib : SuppressionLibrary} {corpusId : String} {env : SuppressionSurroundings}
  {sidecar : Option SuppressionDocument}

/-! ## Stored documents -/

structure Durable (d : SuppressionDocument) : Prop where
  revision : d.resolvedTemplateRevision = none
  rules : ∀ rule ∈ d.rules, rule.resolution = none

theorem Durable.clear_eq {d : SuppressionDocument} (h : Durable d) :
    clearEphemeralResolution d = d := by
  have hrules : d.rules.map (fun rule => { rule with resolution := none }) = d.rules := by
    conv_rhs => rw [← map_id d.rules]
    refine map_congr_left fun rule hrule => ?_
    have := h.rules rule hrule
    cases rule
    simp_all
  unfold clearEphemeralResolution
  rw [hrules, ← h.revision]

theorem load_eq {d : SuppressionDocument} {root read : Option String}
    (hs : ∀ stored ∈ sidecar, Durable stored)
    (h : loadDocumentFromRoot lib root read corpusId sidecar = .ok d) :
    d = currentDocument corpusId sidecar ∧ d.corpusId = corpusId ∧ Durable d := by
  simp only [loadDocumentFromRoot, bind_ok, refuse_ok] at h
  obtain ⟨_, -, _, -, _, -, h⟩ := h
  cases sidecar with
  | none =>
    rw [pure_ok] at h
    subst h
    exact ⟨rfl, rfl, rfl, by simp [emptyDocument]⟩
  | some stored =>
    have hc := hs stored rfl
    simp only [hc.clear_eq, bind_ok, pure_ok, validateDocument_ok] at h
    obtain ⟨_, -, _, hvalid, rfl⟩ := h
    exact ⟨rfl, hvalid.corpus, hc⟩

variable {α : Type}

theorem writing_cases (lib : SuppressionLibrary) (env : SuppressionSurroundings)
    (sidecar : Option SuppressionDocument) (body : CoreResult (α × SuppressionDocument)) :
    (∃ e, writing lib env sidecar body = (.error e, sidecar)) ∨
      ∃ a d, body = .ok (a, d) ∧
        ValidDocument lib d.corpusId (clearEphemeralResolution d) ∧
        lib.documentBytes (clearEphemeralResolution d) ≤ maxSidecarBytes ∧
        writing lib env.withoutLateFault sidecar body =
          (.ok a, some (clearEphemeralResolution d)) ∧
        ((env.publication.after = none ∧
            writing lib env sidecar body = (.ok a, some (clearEphemeralResolution d))) ∨
          ∃ e, env.publication.after = some e ∧
            writing lib env sidecar body = (.error e, some (clearEphemeralResolution d))) := by
  unfold writing
  obtain ⟨e, h⟩ | ⟨a, new, hbody, hcheck, hbefore, h⟩ := publishing_cases (checkPersisted lib env.root)
    env.publication sidecar (do
      let written ← body
      pure (written.1, clearEphemeralResolution written.2))
  · exact .inl ⟨e, h⟩
  · have hclean := publishing_ok sidecar hbody hcheck
      (show env.withoutLateFault.publication.before = none from hbefore) rfl
    simp only [bind_ok, pure_ok, Prod.mk.injEq] at hbody
    obtain ⟨⟨a', d⟩, hbody, rfl, rfl⟩ := hbody
    simp only [checkPersisted, bind_ok, ensure_ok, validateDocument_ok] at hcheck
    obtain ⟨_, -, _, hvalid, hfits⟩ := hcheck
    exact .inr ⟨a', d, hbody, hvalid, by omega, hclean, h⟩

/-! ## Changes of a document -/

/-- The three ways in which a document changes. -/
inductive DocumentChange (d : SuppressionDocument) : SuppressionDocument → Prop
  | previewed {preview : SuppressionPreview} {entry : SuppressionAuditEntry}
      (hpreview : preview.ruleRevision = d.revision + 1)
      (hentry : entry.revision = d.revision + 1) :
      DocumentChange d
        { d with
          previews := [preview], revision := d.revision + 1, audit := d.audit ++ [entry] }
  | activated {rule : SuppressionRule} {entry : SuppressionAuditEntry}
      (hdurable : rule.resolution = none)
      (hfree : ∀ other ∈ d.rules, other.state ≠ .removed →
        other.predicate.templateId ≠ rule.predicate.templateId)
      (hentry : entry.revision = d.revision + 1) :
      DocumentChange d
        { d with
          rules := d.rules ++ [rule], previews := [], revision := d.revision + 1
          audit := d.audit ++ [entry] }
  | changed {i : Fin d.rules.length} {rule : SuppressionRule} {entry : SuppressionAuditEntry}
      (hdurable : rule.resolution = (d.rules.get i).resolution)
      (hlive : (d.rules.get i).state ≠ .removed)
      (hpredicate : rule.predicate = (d.rules.get i).predicate)
      (hentry : entry.revision = d.revision + 1) :
      DocumentChange d
        { d with
          rules := d.rules.set i rule, previews := [], revision := d.revision + 1
          audit := d.audit ++ [entry] }

variable {d d' : SuppressionDocument}

theorem DocumentChange.durable (h : DocumentChange d d') (hd : Durable d) : Durable d' := by
  cases h with
  | previewed _ _ => exact ⟨hd.revision, hd.rules⟩
  | activated hdurable _ _ =>
    refine ⟨hd.revision, fun rule hrule => ?_⟩
    rcases mem_append.mp hrule with hrule | hrule
    · exact hd.rules rule hrule
    · rw [mem_singleton.mp hrule, hdurable]
  | changed hdurable _ _ _ =>
    refine ⟨hd.revision, fun rule hrule => ?_⟩
    rcases mem_or_eq_of_mem_set hrule with hrule | rfl
    · exact hd.rules rule hrule
    · rw [hdurable]
      exact hd.rules _ (get_mem _ _)

theorem DocumentChange.corpusId_eq (h : DocumentChange d d') : d'.corpusId = d.corpusId := by
  cases h <;> rfl

theorem nextSuppressionRevision_ok {current next : Nat} :
    nextSuppressionRevision current = .ok next ↔ current + 1 ≤ u64Max ∧ next = current + 1 := by
  simp only [nextSuppressionRevision, bind_ok, ensure_ok, pure_ok, exists_const]
  exact and_congr_right fun _ => eq_comm

theorem transition_live {state next : SuppressionRuleState} {mutation : SuppressionRuleMutation}
    {action : SuppressionAuditAction} (h : transition state mutation = .ok (next, action)) :
    state ≠ .removed := by
  rintro rfl
  cases mutation <;> cases h

/-- The ways a call can end: it leaves the sidecar and reports why, or it publishes the change that
`clean`, the call without late faults, publishes. -/
def CallEnds (lib : SuppressionLibrary) (corpusId : String) (env : SuppressionSurroundings)
    (sidecar : Option SuppressionDocument)
    (out clean : CoreResult Unit × Option SuppressionDocument) : Prop :=
  (∃ e, out = (.error e, sidecar)) ∨
    ∃ d', DocumentChange (currentDocument corpusId sidecar) d' ∧ ValidDocument lib corpusId d' ∧
      Durable d' ∧ lib.documentBytes d' ≤ maxSidecarBytes ∧ clean = (.ok (), some d') ∧
      ((env.publication.after = none ∧ out = (.ok (), some d')) ∨
        ∃ e, env.publication.after = some e ∧ out = (.error e, some d'))

theorem callEnds_of_body {body : CoreResult (α × SuppressionDocument)}
    (hs : ∀ stored ∈ sidecar, Durable stored)
    (hbody : ∀ a d', body = .ok (a, d') → ∃ d,
      loadDocumentFromRoot lib env.root env.read corpusId sidecar = .ok d ∧ DocumentChange d d') :
    CallEnds lib corpusId env sidecar (forgetValue (writing lib env sidecar body))
      (forgetValue (writing lib env.withoutLateFault sidecar body)) := by
  obtain ⟨e, h⟩ | ⟨a, d', hok, hvalid, hfits, hclean, h⟩ := writing_cases lib env sidecar body
  · exact .inl ⟨e, by rw [h]; rfl⟩
  · obtain ⟨d, hload, hchange⟩ := hbody a d' hok
    obtain ⟨rfl, hcorpus, hdurable⟩ := load_eq hs hload
    have hdurable' := hchange.durable hdurable
    rw [hchange.corpusId_eq, hcorpus, hdurable'.clear_eq] at hvalid
    rw [hdurable'.clear_eq] at h hclean hfits
    refine .inr ⟨d', hchange, hvalid, hdurable', hfits, by rw [hclean]; rfl, ?_⟩
    rcases h with ⟨hafter, h⟩ | ⟨e, hafter, h⟩
    · exact .inl ⟨hafter, by rw [h]; rfl⟩
    · exact .inr ⟨e, hafter, by rw [h]; rfl⟩

theorem run_cases (env : SuppressionSurroundings) (hs : ∀ stored ∈ sidecar, Durable stored)
    (call : SuppressionCall) :
    CallEnds lib corpusId env sidecar (call.run lib corpusId env sidecar)
      (call.run lib corpusId env.withoutLateFault sidecar) := by
  cases call with
  | preview expectedRevision input =>
    refine callEnds_of_body hs fun a d' h => ?_
    simp only [bind_ok, pure_ok, Prod.mk.injEq, nextSuppressionRevision_ok] at h
    obtain ⟨_, -, _, -, d, hload, _, -, _, -, _, -, _, -, _, -, revision, ⟨-, rfl⟩, -, rfl⟩ := h
    exact ⟨d, hload, .previewed rfl rfl⟩
  | activate expectedRevision previewToken =>
    refine callEnds_of_body hs fun a d' h => ?_
    simp only [bind_ok, pure_ok, ensure_ok, Prod.mk.injEq, nextSuppressionRevision_ok] at h
    obtain ⟨_, -, _, -, d, hload, _, -, _, -, _, -, _, -, preview, -, _, -, _, -, _, -, _, hfree,
      revision, ⟨-, rfl⟩, _, -, _, -, _, -, _, -, -, rfl⟩ := h
    refine ⟨d, hload, .activated rfl (fun other hother hlive heq => hfree ?_) rfl⟩
    exact any_eq_true.mpr ⟨other, hother, decide_eq_true ⟨hlive, heq⟩⟩
  | mutate expectedRevision ruleId mutation =>
    refine callEnds_of_body hs fun a d' h => ?_
    simp only [bind_ok] at h
    obtain ⟨_, -, _, -, d, hload, _, -, index, -, ⟨state, action⟩, htrans, h⟩ := h
    simp only [pure_ok, nextSuppressionRevision_ok] at h
    obtain ⟨_, -, _, -, _, -, revision, ⟨-, rfl⟩, h⟩ := h
    obtain rfl := congrArg Prod.snd h
    exact ⟨d, hload, .changed rfl (transition_live htrans) rfl rfl⟩

/-! ## What every reached document satisfies -/

def liveRules (d : SuppressionDocument) (templateId : UInt64) : Nat :=
  d.rules.countP fun rule => rule.state ≠ .removed ∧ rule.predicate.templateId = templateId

/-- What holds of every reached document, beyond its validity. -/
structure SuppressionInv (d : SuppressionDocument) : Prop where
  oneLive : ∀ templateId, liveRules d templateId ≤ 1
  onePreview : d.previews.length ≤ 1
  currentPreview : ∀ preview ∈ d.previews, preview.ruleRevision = d.revision

theorem countP_set_le {p : α → Bool} {l : List α} {i : Fin l.length} {a : α}
    (h : p a = true → p (l.get i) = true) : (l.set i a).countP p ≤ l.countP p := by
  obtain ⟨i, hi⟩ := i
  induction l generalizing i with
  | nil => cases hi
  | cons b l ih =>
    cases i with
    | zero =>
      have hb : p a = true → p b = true := h
      rw [set_cons_zero, countP_cons, countP_cons]
      by_cases hpa : p a = true
      · simp [hpa, hb hpa]
      · simp [hpa]
    | succ i =>
      have hle : (l.set i a).countP p ≤ l.countP p := ih i (Nat.lt_of_succ_lt_succ hi) h
      rw [set_cons_succ, countP_cons, countP_cons]
      omega

/-- Every change keeps the invariant. -/
theorem DocumentChange.inv (h : DocumentChange d d') (hd : SuppressionInv d) :
    SuppressionInv d' := by
  cases h with
  | previewed hpreview hentry =>
    refine ⟨hd.oneLive, Nat.le_refl 1, fun preview hmem => ?_⟩
    rw [mem_singleton.mp hmem]
    exact hpreview
  | @activated rule entry hdurable hfree hentry =>
    refine ⟨fun templateId => ?_, Nat.zero_le 1, fun preview hmem => absurd hmem (by simp)⟩
    show (d.rules ++ [rule]).countP _ ≤ 1
    have hone : d.rules.countP _ ≤ 1 := hd.oneLive templateId
    rw [countP_append]
    by_cases heq : rule.predicate.templateId = templateId
    · -- no live rule owns the template, so the new one is the only one
      have hzero : d.rules.countP (fun other => other.state ≠ .removed ∧
          other.predicate.templateId = templateId) = 0 := by
        refine countP_eq_zero.mpr fun other hother hp => ?_
        obtain ⟨hlive, ht⟩ := of_decide_eq_true hp
        exact hfree other hother hlive (ht.trans heq.symm)
      rw [hzero, Nat.zero_add]
      exact countP_le_length
    · simpa [heq] using hone
  | @changed i rule entry hdurable hlive hpredicate hentry =>
    refine ⟨fun templateId => ?_, Nat.zero_le 1, fun preview hmem => absurd hmem (by simp)⟩
    refine Nat.le_trans (countP_set_le fun hp => ?_) (hd.oneLive templateId)
    obtain ⟨-, ht⟩ := of_decide_eq_true hp
    exact decide_eq_true ⟨hlive, by rw [← hpredicate]; exact ht⟩

variable {i : Nat} {rule : SuppressionRule}

theorem DocumentChange.removed_kept (h : DocumentChange d d') (hrule : d.rules[i]? = some rule)
    (hremoved : rule.state = .removed) : d'.rules[i]? = some rule := by
  cases h with
  | previewed _ _ => exact hrule
  | activated _ _ _ =>
    obtain ⟨hi, -⟩ := List.getElem?_eq_some_iff.mp hrule
    show (d.rules ++ [_])[i]? = some rule
    rw [getElem?_append_left hi]
    exact hrule
  | @changed j _ _ _ hlive _ _ =>
    have hne : j.val ≠ i := by
      rintro rfl
      obtain ⟨_, heq⟩ := List.getElem?_eq_some_iff.mp hrule
      exact hlive (by rw [get_eq_getElem, heq]; exact hremoved)
    show (d.rules.set j _)[i]? = some rule
    rw [getElem?_set_ne hne]
    exact hrule

/-- A change is one revision and one audit entry. -/
structure OneRevisionLater (d d' : SuppressionDocument) : Prop where
  revision : d'.revision = d.revision + 1
  audit : ∃ entry, d'.audit = d.audit ++ [entry] ∧ entry.revision = d'.revision

theorem DocumentChange.later (h : DocumentChange d d') : OneRevisionLater d d' := by
  cases h with
  | previewed _ hentry => exact ⟨rfl, _, rfl, hentry⟩
  | activated _ _ hentry => exact ⟨rfl, _, rfl, hentry⟩
  | changed _ _ _ hentry => exact ⟨rfl, _, rfl, hentry⟩

/-- What a sequence of calls keeps of the sidecar. -/
structure ReachedInv (lib : SuppressionLibrary) (corpusId : String)
    (sidecar : Option SuppressionDocument) : Prop where
  durable : ∀ stored ∈ sidecar, Durable stored
  fits : ∀ stored ∈ sidecar, lib.documentBytes stored ≤ maxSidecarBytes
  valid : ValidDocument lib corpusId (currentDocument corpusId sidecar)
  inv : SuppressionInv (currentDocument corpusId sidecar)

theorem reachedInv_none
    (hid : validateBoundedText "corpus id" corpusId maxCorpusIdBytes = .ok ()) :
    ReachedInv lib corpusId none := by
  refine ⟨by simp, by simp, validDocument_empty hid, fun templateId => Nat.zero_le 1, Nat.zero_le 1, ?_⟩
  intro preview hmem
  cases hmem

theorem ReachedInv.run (h : ReachedInv lib corpusId sidecar) (call : SuppressionCall)
    (env : SuppressionSurroundings) :
    ReachedInv lib corpusId (call.run lib corpusId env sidecar).2 := by
  obtain ⟨e, hout⟩ | ⟨d', hchange, hvalid, hdurable, hfits, -, hout⟩ :=
    run_cases env h.durable call
  · rw [hout]
    exact h
  · have hpublished : (call.run lib corpusId env sidecar).2 = some d' := by
      rcases hout with ⟨-, hout⟩ | ⟨e, -, hout⟩ <;> rw [hout]
    rw [hpublished]
    refine ⟨fun stored hstored => ?_, fun stored hstored => ?_, hvalid, hchange.inv h.inv⟩
    · obtain rfl := Option.mem_some_iff.mp hstored
      exact hdurable
    · obtain rfl := Option.mem_some_iff.mp hstored
      exact hfits

theorem ReachedInv.runCalls (h : ReachedInv lib corpusId sidecar)
    (calls : List (SuppressionSurroundings × SuppressionCall)) :
    ReachedInv lib corpusId (runCalls lib corpusId calls sidecar) := by
  induction calls generalizing sidecar with
  | nil => exact h
  | cons step calls ih => exact ih (h.run step.2 step.1)

theorem ReachedInv.removed_kept (h : ReachedInv lib corpusId sidecar) (call : SuppressionCall)
    (env : SuppressionSurroundings)
    (hrule : (currentDocument corpusId sidecar).rules[i]? = some rule)
    (hremoved : rule.state = .removed) :
    (currentDocument corpusId (call.run lib corpusId env sidecar).2).rules[i]? = some rule := by
  obtain ⟨e, hout⟩ | ⟨d', hchange, -, -, -, -, hout⟩ := run_cases env h.durable call
  · rw [hout]
    exact hrule
  · have hkept := hchange.removed_kept hrule hremoved
    rcases hout with ⟨-, hout⟩ | ⟨e, -, hout⟩ <;> rw [hout] <;> exact hkept

theorem ReachedInv.removed_kept_runCalls (h : ReachedInv lib corpusId sidecar)
    (calls : List (SuppressionSurroundings × SuppressionCall))
    (hrule : (currentDocument corpusId sidecar).rules[i]? = some rule)
    (hremoved : rule.state = .removed) :
    (currentDocument corpusId
      (LogAnalysis.runCalls lib corpusId calls sidecar)).rules[i]? = some rule := by
  induction calls generalizing sidecar with
  | nil => exact hrule
  | cons step calls ih =>
    exact ih (h.run step.2 step.1) (h.removed_kept step.2 step.1 hrule hremoved)

/-- The promise of one call from a sidecar: a failed call leaves it, or fails after the publication
of exactly what it would have published; a call that returns, and one that fails so late, publishes
one revision with one audit entry. -/
structure CallPromise (lib : SuppressionLibrary) (corpusId : String)
    (sidecar : Option SuppressionDocument) (env : SuppressionSurroundings)
    (call : SuppressionCall) : Prop where
  failed : ∀ e, (call.run lib corpusId env sidecar).1 = .error e →
    (call.run lib corpusId env sidecar).2 = sidecar ∨
      (env.publication.after = some e ∧
        call.run lib corpusId env.withoutLateFault sidecar =
          (.ok (), (call.run lib corpusId env sidecar).2))
  returned : (call.run lib corpusId env sidecar).1 = .ok () →
    OneRevisionLater (currentDocument corpusId sidecar)
      (currentDocument corpusId (call.run lib corpusId env sidecar).2)

theorem ReachedInv.promise (h : ReachedInv lib corpusId sidecar) (env : SuppressionSurroundings)
    (call : SuppressionCall) : CallPromise lib corpusId sidecar env call := by
  obtain ⟨e, hout⟩ | ⟨d', hchange, -, -, -, hclean, ⟨hafter, hout⟩ | ⟨e, hafter, hout⟩⟩ :=
    run_cases env h.durable call
  · refine ⟨fun e' _ => .inl (by rw [hout]), fun hok => ?_⟩
    rw [hout] at hok
    cases hok
  · refine ⟨fun e' herr => ?_, fun _ => ?_⟩
    · rw [hout] at herr
      cases herr
    · rw [hout]
      exact hchange.later
  · refine ⟨fun e' herr => .inr ?_, fun hok => ?_⟩
    · rw [hout] at herr ⊢
      obtain rfl := Except.error.inj herr
      exact ⟨hafter, hclean⟩
    · rw [hout] at hok
      cases hok

/-- The document after a sequence of calls on a new corpus. -/
def reachedDocument (lib : SuppressionLibrary) (corpusId : String)
    (calls : List (SuppressionSurroundings × SuppressionCall)) : SuppressionDocument :=
  currentDocument corpusId (runCalls lib corpusId calls none)

/-- Every reached document is valid, with at most one live rule for a template, only human rules
enabled and at most one preview, which is current; every further call keeps its promise, and removed
rules stay as they are. -/
theorem suppression_run_invariants
    (hid : validateBoundedText "corpus id" corpusId maxCorpusIdBytes = .ok ())
    (calls : List (SuppressionSurroundings × SuppressionCall)) :
    validateDocument lib (reachedDocument lib corpusId calls) corpusId = .ok () ∧
    (∀ templateId, liveRules (reachedDocument lib corpusId calls) templateId ≤ 1) ∧
    (∀ rule ∈ (reachedDocument lib corpusId calls).rules,
      rule.state = .enabled → rule.origin = .human) ∧
    (reachedDocument lib corpusId calls).previews.length ≤ 1 ∧
    (∀ preview ∈ (reachedDocument lib corpusId calls).previews,
      preview.ruleRevision = (reachedDocument lib corpusId calls).revision) ∧
    (∀ env call, CallPromise lib corpusId (runCalls lib corpusId calls none) env call) ∧
    ∀ later (i : Nat) (rule : SuppressionRule),
      (reachedDocument lib corpusId calls).rules[i]? = some rule → rule.state = .removed →
        (reachedDocument lib corpusId (calls ++ later)).rules[i]? = some rule := by
  have h : ReachedInv lib corpusId (runCalls lib corpusId calls none) :=
    (reachedInv_none hid).runCalls calls
  refine ⟨validateDocument_ok.mpr h.valid, h.inv.oneLive, fun rule hrule => ?_, h.inv.onePreview,
    h.inv.currentPreview, fun env call => h.promise env call, fun later i rule hrule hremoved => ?_⟩
  · exact (h.valid.rules rule hrule).human
  · unfold reachedDocument runCalls
    rw [foldl_append]
    exact h.removed_kept_runCalls later hrule hremoved

/-! ## One template and its rule -/

/-- A library that knows the version digit of a UUID and redacts nothing. -/
def plainLibrary : SuppressionLibrary where
  isUuidV7 value := value.toList.length = 36 ∧ value.toList[14]? = some '7'
  redactCandidate message := { text := message, blocked := false }
  lower value := String.ofList (Text.asciiLower value.toList)
  documentBytes _ := 4096

def healthRow : EventRow where
  seq := 1
  ts := 1700000000
  level := "info"
  service := none
  host := none
  templateId := 7
  params := []
  traceId := none
  message := "routine health check"
  source := "worker/app.log"
  original := none
  timestampProvenance := some .explicitWallClock
  activeTimestampBasis := some .explicitWall
  unresolvedLocalTimestamp := none

def quietSurroundings : SuppressionSurroundings where
  guard := none
  root := none
  read := none
  templates _ id := if id = 7 then some "sha256:template-seven" else none
  eventRevision _ := 1
  connection := none
  events := [healthRow]
  now := 1700000000
  token := "018bcfe5-687b-7000-8000-000000000001"
  ruleId := "018bcfe5-687b-7000-8000-000000000002"
  auditId := "018bcfe5-687b-7000-8000-000000000003"
  publication := { before := none, after := none }

def healthPreview : SuppressionCall :=
  .preview 0
    { name := "Routine health check"
      rationale := "Reviewed repetitive success traffic"
      templateId := 7
      origin := .human }

/-- Surroundings in which the directory cannot be synced after the publication. -/
def lateFault : SuppressionSurroundings :=
  { quietSurroundings with
    publication := { before := none, after := some "sync suppression directory: I/O error" } }

/-- A call that fails after the publication has changed the document. -/
theorem failed_preview_published :
    (healthPreview.run plainLibrary "corpus-1" lateFault none).1 =
      .error "sync suppression directory: I/O error" ∧
    (currentDocument "corpus-1"
      (healthPreview.run plainLibrary "corpus-1" lateFault none).2).revision = 1 ∧
    (currentDocument "corpus-1" none).revision = 0 := by
  refine ⟨by decide +kernel, by decide +kernel, rfl⟩

theorem suppression_run_invariants_health :
    (reachedDocument plainLibrary "corpus-1" [(quietSurroundings, healthPreview)]).revision = 1 ∧
    validateDocument plainLibrary
      (reachedDocument plainLibrary "corpus-1" [(quietSurroundings, healthPreview)])
      "corpus-1" = .ok () := by
  have hid : validateBoundedText "corpus id" "corpus-1" maxCorpusIdBytes = .ok () := by decide
  refine ⟨by decide +kernel, ?_⟩
  exact (suppression_run_invariants hid [(quietSurroundings, healthPreview)]).1

end ContextDesk.LogAnalysis
