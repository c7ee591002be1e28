import ContextDesk.LogAnalysis.LensHistory
import ContextDesk.LogAnalysis.SuppressionReserve

/-!
# Runs of interleaved calls

`StageInv` says what a call knows at each of its stages, in terms of the times at which it looked:
the sidecar it measured, the revision it read later, the readings taken after that. One step keeps
it (`StageInv.next`), a moment that becomes current keeps it (`StageInv.extend`), and so every
reached system has it (`LensInv.reached`).
-/

namespace ContextDesk.LogAnalysis

open Lib
open scoped Lib.WordOrder

variable {lib : SuppressionLibrary} {corpusId : String}

/-! ## What a call knows -/

/-- The sidecar was measured at time `i`. -/
def Observed (l : List Moment) (began i : Nat) (sidecar : SidecarIdentity) : Prop :=
  began ≤ i ∧ ∃ m : Moment, l[i]? = some m ∧
    (sidecar ≠ .unmeasurable → m.file.identity = sidecar)

/-- The sidecar was measured at time `i` and the revision read at time `j`. -/
def Keyed (l : List Moment) (began i j : Nat) (sidecar : SidecarIdentity) (revision : Nat) : Prop :=
  Observed l began i sidecar ∧ i ≤ j ∧ ∃ m : Moment, l[j]? = some m ∧ m.templateRevision = revision

/-- The lens was resolved from readings taken after both. -/
def Resolution (lib : SuppressionLibrary) (corpusId : String) (l : List Moment) (began : Nat)
    (sidecar : SidecarIdentity) (revision settled : Nat) (lens : TrustedSuppressionLens) : Prop :=
  ∃ i j r last, Keyed l began i j sidecar revision ∧ ReadDuring l j settled [] r ∧ j ≤ settled ∧
    l[settled]? = some last ∧ lens = resolveLens lib corpusId r revision

def StageInv (lib : SuppressionLibrary) (corpusId : String) (l : List Moment) (began : Nat) :
    CallStage → Prop
  | .started => True
  | .observed sidecar => ∃ i, Observed l began i sidecar
  | .keyed sidecar revision => ∃ i j, Keyed l began i j sidecar revision
  | .hit settled lens => settled < l.length ∧ Fresh lib corpusId l began settled lens
  | .resolving sidecar revision todo r =>
    ∃ i j, Keyed l began i j sidecar revision ∧ ReadDuring l j l.length todo r
  | .resolved sidecar revision settled lens =>
    Resolution lib corpusId l began sidecar revision settled lens
  | .confirmed sidecar revision settled lens =>
    Resolution lib corpusId l began sidecar revision settled lens ∧ sidecar ≠ .unmeasurable ∧
      ∃ (k : Nat) (m : Moment), settled ≤ k ∧ l[k]? = some m ∧ m.file.identity = sidecar
  | .storing sidecar revision settled lens =>
    Resolution lib corpusId l began sidecar revision settled lens ∧
      Stamped lib corpusId l sidecar revision lens
  | .returned settled lens => settled < l.length ∧ Accounted lib corpusId l began settled lens

/-! ## The past does not change -/

variable {l : List Moment} {began i : Nat} {sidecar : SidecarIdentity}

theorem Observed.extend (h : Observed l began i sidecar) (b : Moment) :
    Observed (l ++ [b]) began i sidecar := by
  obtain ⟨hbegan, m, hm, hidentity⟩ := h
  exact ⟨hbegan, m, getElem?_extend hm b, hidentity⟩

variable {j revision : Nat}

theorem Keyed.extend (h : Keyed l began i j sidecar revision) (b : Moment) :
    Keyed (l ++ [b]) began i j sidecar revision := by
  obtain ⟨hobserved, hij, m, hm, hrev⟩ := h
  exact ⟨hobserved.extend b, hij, m, getElem?_extend hm b, hrev⟩

theorem ReadDuring.extend {j' : Nat} {todo : List Reading} {r : LensReadings}
    (h : ReadDuring l i j todo r) (hj : j ≤ j') (b : Moment) :
    ReadDuring (l ++ [b]) i j' todo r := by
  intro reading hreading
  obtain ⟨m, hm, hreads⟩ := h reading hreading
  exact ⟨m, (hm.extend b).widen (Nat.le_refl _) hj, hreads⟩

variable {settled : Nat} {lens : TrustedSuppressionLens}

theorem Resolution.extend (h : Resolution lib corpusId l began sidecar revision settled lens)
    (b : Moment) : Resolution lib corpusId (l ++ [b]) began sidecar revision settled lens := by
  obtain ⟨i, j, r, last, hkeyed, hread, hj, hlast, rfl⟩ := h
  exact ⟨i, j, r, last, hkeyed.extend b, hread.extend (Nat.le_refl _) b, hj,
    getElem?_extend hlast b, rfl⟩

theorem Fresh.extend (h : Fresh lib corpusId l began settled lens) (b : Moment) :
    Fresh lib corpusId (l ++ [b]) began settled lens := by
  obtain ⟨m, eventRevision, hm, rfl⟩ := h
  exact ⟨m, eventRevision, hm.extend b, rfl⟩

theorem Stamped.extend (h : Stamped lib corpusId l sidecar revision lens) (b : Moment) :
    Stamped lib corpusId (l ++ [b]) sidecar revision lens := by
  obtain ⟨k, m, eventRevision, hk, hidentity, hrev, rfl⟩ := h
  exact ⟨k, m, eventRevision, getElem?_extend hk b, hidentity, hrev, rfl⟩

theorem Accounted.extend (h : Accounted lib corpusId l began settled lens) (b : Moment) :
    Accounted lib corpusId (l ++ [b]) began settled lens := by
  rcases h with hfresh | ⟨⟨m, m', hm, hm', hrev, hlt⟩, hrest⟩
  · exact .inl (hfresh.extend b)
  · refine .inr ⟨⟨m, m', hm.extend b, hm'.extend b, hrev, hlt⟩, ?_⟩
    rcases hrest with hnone | ⟨p, t, eventRevision, hp, ht, heq⟩
    · exact .inl hnone
    · exact .inr ⟨p, t, eventRevision, hp.extend b, ht.extend b, heq⟩

variable {stage : CallStage}

theorem StageInv.extend (h : StageInv lib corpusId l began stage) (b : Moment) :
    StageInv lib corpusId (l ++ [b]) began stage := by
  have hlen : (l ++ [b]).length = l.length + 1 := by simp
  cases stage with
  | started => trivial
  | observed sidecar =>
    obtain ⟨i, hobserved⟩ := h
    exact ⟨i, hobserved.extend b⟩
  | keyed sidecar revision =>
    obtain ⟨i, j, hkeyed⟩ := h
    exact ⟨i, j, hkeyed.extend b⟩
  | hit settled lens =>
    obtain ⟨hsettled, hfresh⟩ := h
    exact ⟨by omega, hfresh.extend b⟩
  | resolving sidecar revision todo r =>
    obtain ⟨i, j, hkeyed, hread⟩ := h
    exact ⟨i, j, hkeyed.extend b, hread.extend (by omega) b⟩
  | resolved sidecar revision settled lens => exact Resolution.extend h b
  | confirmed sidecar revision settled lens =>
    obtain ⟨hresolution, hmeasured, k, m, hk, hm, hidentity⟩ := h
    exact ⟨hresolution.extend b, hmeasured, k, m, hk, getElem?_extend hm b, hidentity⟩
  | storing sidecar revision settled lens => exact ⟨h.1.extend b, h.2.extend b⟩
  | returned settled lens =>
    obtain ⟨hsettled, haccounted⟩ := h
    exact ⟨by omega, haccounted.extend b⟩

/-! ## One step -/

theorem Resolution.steady (hl : l.Pairwise Precedes)
    (h : Resolution lib corpusId l began sidecar revision settled lens) {k : Nat} {later : Moment}
    (hk : settled ≤ k) (hlater : l[k]? = some later) (hrev : later.templateRevision = revision) :
    ∃ i m eventRevision, Observed l began i sidecar ∧ Current l i settled m ∧
      m.templateRevision = revision ∧ lens = freshLens lib corpusId m eventRevision := by
  obtain ⟨i, j, r, last, ⟨hobserved, hij, first, hfirst, rfl⟩, hread, hj, hlast, rfl⟩ := h
  have hend := revision_between hl hfirst hlater hrev.symm (.at hlast hj hk)
  obtain ⟨m, hm, hmrev, hr⟩ := hread.steady hl hfirst hlast hend.symm
  refine ⟨i, m, r.eventRevision, hobserved, hm.widen hij (Nat.le_refl _), hmrev, ?_⟩
  rw [freshLens, ← hr, hmrev]

theorem Resolution.stamped (hl : l.Pairwise Precedes)
    (h : Resolution lib corpusId l began sidecar revision settled lens)
    (hmeasured : sidecar ≠ .unmeasurable) {k k' : Nat} {confirmed later : Moment}
    (hk : settled ≤ k) (hconfirmed : l[k]? = some confirmed)
    (hidentity : confirmed.file.identity = sidecar) (hk' : settled ≤ k')
    (hlater : l[k']? = some later) (hrev : later.templateRevision = revision) :
    Stamped lib corpusId l sidecar revision lens := by
  obtain ⟨i, m, eventRevision, ⟨-, first, hfirst, hsidecar⟩, hm, hmrev, rfl⟩ :=
    h.steady hl hk' hlater hrev
  have hends : first.generation = confirmed.generation := by
    obtain ⟨_, hi, hsettled, -⟩ := hm
    refine (precedes_of_le hl (by omega) hfirst hconfirmed).identity ?_
    rw [hsidecar hmeasured, hidentity]
  have hgeneration : m.generation = first.generation :=
    generation_between hl hfirst hconfirmed hends (hm.widen (Nat.le_refl _) hk)
  obtain ⟨n, hn, -, hat⟩ := hm
  have hfile := (precedes_of_le hl hn hfirst hat).file hgeneration.symm
  refine ⟨n, m, eventRevision, hat, ?_, hmrev, rfl⟩
  rw [← hfile, hsidecar hmeasured]

theorem Composed.widen (h : Composed lib corpusId l i settled lens) (hi : began ≤ i) :
    Composed lib corpusId l began settled lens := by
  obtain ⟨m, m', eventRevision, hm, hm', heq⟩ := h
  exact ⟨m, m', eventRevision, hm.widen hi (Nat.le_refl _), hm'.widen hi (Nat.le_refl _), heq⟩

theorem Resolution.accounted (hl : l.Pairwise Precedes)
    (h : Resolution lib corpusId l began sidecar revision settled lens) :
    settled < l.length ∧ Accounted lib corpusId l began settled lens := by
  obtain ⟨i, j, r, last, ⟨⟨hbegan, hmeasured⟩, hij, first, hfirst, hrev⟩, hread, hj, hlast, hlens⟩ :=
    id h
  refine ⟨(List.getElem?_eq_some_iff.mp hlast).1, ?_⟩
  by_cases hsame : last.templateRevision = revision
  · obtain ⟨i', m, eventRevision, ⟨hi', -⟩, hm, -, heq⟩ :=
      h.steady hl (Nat.le_refl _) hlast hsame
    exact .inl ⟨m, eventRevision, hm.widen hi' (Nat.le_refl _), heq⟩
  · have hle := (precedes_of_le hl hj hfirst hlast).revision
    have hstamp : lens.templateAnalysisRevision = revision := by
      rw [hlens, resolveLens_revision]
    refine .inr ⟨⟨first, last, .at hfirst (by omega) hj, .at hlast (by omega) (Nat.le_refl _),
      by omega, by omega⟩, ?_⟩
    rcases composed_of_reads hread revision with hnone | hcomposed
    · exact .inl (hlens ▸ hnone)
    · exact .inr (hlens ▸ hcomposed.widen (by omega))

theorem Keyed.hit (hl : l.Pairwise Precedes) (h : Keyed l began i j sidecar revision)
    (hmeasured : sidecar ≠ .unmeasurable)
    (hstamped : Stamped lib corpusId l sidecar revision lens) {time : Nat}
    (htime : l.length = time + 1) : Fresh lib corpusId l began time lens := by
  obtain ⟨⟨hbegan, first, hfirst, hidentity⟩, hij, keyed, hkeyed, hrev⟩ := h
  obtain ⟨k, m, eventRevision, hk, hmidentity, hmrev, rfl⟩ := hstamped
  have hlt : k < l.length := (List.getElem?_eq_some_iff.mp hk).1
  have hlt' : i < l.length := (List.getElem?_eq_some_iff.mp hfirst).1
  rcases Nat.lt_or_ge k began with hbefore | hafter
  · -- the sidecar and the revision are still those of the moment when the sidecar is measured
    have hfirstRev : first.templateRevision = m.templateRevision :=
      revision_between hl hk hkeyed (hmrev.trans hrev.symm) (.at hfirst (by omega) hij)
    have heq : m = first := (precedes_of_le hl (by omega) hk hfirst).eq
      (hmidentity.trans (hidentity hmeasured).symm) hfirstRev.symm
    exact ⟨m, eventRevision, .at (heq ▸ hfirst) hbegan (by omega), rfl⟩
  · exact ⟨m, eventRevision, .at hk hafter (by omega), rfl⟩

theorem timeline_time (s : LensSystem) : s.timeline[s.time]? = some s.now := by
  simp [LensSystem.timeline, LensSystem.time]

theorem timeline_length (s : LensSystem) : s.timeline.length = s.time + 1 := by
  simp [LensSystem.timeline, LensSystem.time]

theorem cacheHit_some {cache : Option CachedSuppressionLens} {cached : CachedSuppressionLens}
    (h : cacheHit cache sidecar revision = some cached) :
    sidecar ≠ .unmeasurable ∧ cache = some cached ∧ cached.sidecar = sidecar ∧
      cached.templateAnalysisRevision = revision := by
  unfold cacheHit at h
  split at h
  · cases h
  · rename_i hmeasured
    obtain ⟨hcache, hkeys⟩ := Option.filter_eq_some_iff.mp h
    obtain ⟨hsidecar, hrevision⟩ := of_decide_eq_true hkeys
    exact ⟨hmeasured, hcache, hsidecar, hrevision⟩

structure LensInv (lib : SuppressionLibrary) (corpusId : String) (s : LensSystem) : Prop where
  ordered : s.timeline.Pairwise Precedes
  cache : ∀ cached ∈ s.cache,
    Stamped lib corpusId s.timeline cached.sidecar cached.templateAnalysisRevision cached.lens
  calls : ∀ call began stage, s.calls call = some ⟨began, stage⟩ →
    began ≤ s.time ∧ StageInv lib corpusId s.timeline began stage

/-- One step of a call keeps what it knows. -/
theorem StageInv.next {s : LensSystem} (hs : LensInv lib corpusId s) {began : Nat}
    (hbegan : began ≤ s.time) {stage : CallStage}
    (h : StageInv lib corpusId s.timeline began stage) (measured : Bool) :
    StageInv lib corpusId s.timeline began (stage.next lib corpusId s measured) := by
  have hnow := timeline_time s
  have hlen := timeline_length s
  cases stage with
  | started =>
    refine ⟨s.time, hbegan, s.now, hnow, fun hmeasured => ?_⟩
    unfold LensSystem.observe at hmeasured ⊢
    split
    · rfl
    · rename_i hm
      exact absurd (if_neg hm) hmeasured
  | observed sidecar =>
    obtain ⟨i, hobserved⟩ := h
    obtain ⟨-, m, hm, -⟩ := id hobserved
    have hi : i < s.timeline.length := (List.getElem?_eq_some_iff.mp hm).1
    exact ⟨i, s.time, hobserved, by omega, s.now, hnow, rfl⟩
  | keyed sidecar revision =>
    obtain ⟨i, j, hkeyed⟩ := h
    rw [CallStage.next]
    cases hhit : cacheHit s.cache sidecar revision with
    | none => exact ⟨i, j, hkeyed, fun reading hout => absurd reading.mem_script hout⟩
    | some cached =>
      obtain ⟨hmeasured, hcache, rfl, rfl⟩ := cacheHit_some hhit
      exact ⟨by omega, hkeyed.hit hs.ordered hmeasured (hs.cache cached hcache) hlen⟩
  | hit settled lens =>
    obtain ⟨hsettled, hfresh⟩ := h
    exact ⟨hsettled, .inl (hfresh.restamp s.eventRevision)⟩
  | resolving sidecar revision todo r =>
    obtain ⟨i, j, hkeyed, hread⟩ := h
    obtain ⟨-, -, m, hm, -⟩ := id hkeyed
    have hj : j < s.timeline.length := (List.getElem?_eq_some_iff.mp hm).1
    cases todo with
    | nil =>
      refine ⟨i, j, r, s.now, hkeyed, fun reading hreading => ?_, by omega, hnow, rfl⟩
      obtain ⟨m', ⟨k, hjk, -, hk⟩, hreads⟩ := hread reading hreading
      have hlt : k < s.timeline.length := (List.getElem?_eq_some_iff.mp hk).1
      exact ⟨m', .at hk hjk (by omega), hreads⟩
    | cons reading todo =>
      exact ⟨i, j, hkeyed, hread.next (.at hnow (by omega) (by omega)) s.eventRevision⟩
  | resolved sidecar revision settled lens =>
    rw [CallStage.next]
    split
    · rename_i hsame
      obtain ⟨hmeasured, hobserve⟩ := hsame
      obtain ⟨hsettled, -⟩ := Resolution.accounted hs.ordered h
      refine ⟨h, hmeasured, s.time, s.now, by omega, hnow, ?_⟩
      unfold LensSystem.observe at hobserve
      split at hobserve
      · exact hobserve
      · exact absurd hobserve.symm hmeasured
    · exact Resolution.accounted hs.ordered h
  | confirmed sidecar revision settled lens =>
    obtain ⟨hresolution, hmeasured, k, m, hk, hm, hidentity⟩ := h
    have haccounted := hresolution.accounted hs.ordered
    rw [CallStage.next]
    split
    · rename_i hrev
      have hsettled := haccounted.1
      exact ⟨hresolution,
        hresolution.stamped hs.ordered hmeasured hk hm hidentity (by omega) hnow hrev⟩
    · exact haccounted
  | storing sidecar revision settled lens => exact h.1.accounted hs.ordered
  | returned settled lens => exact h

/-! ## Runs -/

theorem StageInv.cacheAfter (h : StageInv lib corpusId l began stage)
    {cache : Option CachedSuppressionLens}
    (hcache : ∀ cached ∈ cache,
      Stamped lib corpusId l cached.sidecar cached.templateAnalysisRevision cached.lens) :
    ∀ cached ∈ stage.cacheAfter cache,
      Stamped lib corpusId l cached.sidecar cached.templateAnalysisRevision cached.lens := by
  cases stage with
  | storing sidecar revision settled lens =>
    rintro _ ⟨⟩
    exact h.2
  | _ => exact hcache

theorem calls_update {P : Nat → CallStage → Prop} {calls : Nat → Option LensCall}
    (h : ∀ call began stage, calls call = some ⟨began, stage⟩ → P began stage) (call : Nat)
    (hnew : P began stage) :
    ∀ other began' stage', Function.update calls call (some ⟨began, stage⟩) other =
      some ⟨began', stage'⟩ → P began' stage' := by
  intro other began' stage' hother
  by_cases heq : other = call
  · subst heq
    simp only [Function.update_self, Option.some.injEq, LensCall.mk.injEq] at hother
    obtain ⟨rfl, rfl⟩ := hother
    exact hnew
  · rw [Function.update_of_ne heq] at hother
    exact h other began' stage' hother

theorem LensInv.step {s : LensSystem} (hs : LensInv lib corpusId s) (call : Nat) (measured : Bool) :
    LensInv lib corpusId ((LensAction.step call measured).apply lib corpusId s) := by
  rw [LensAction.apply]
  cases hcall : s.calls call with
  | none => exact hs
  | some c =>
    obtain ⟨hbegan, hstage⟩ := hs.calls call c.began c.stage hcall
    exact ⟨hs.ordered, hstage.cacheAfter hs.cache,
      calls_update hs.calls call ⟨hbegan, hstage.next hs hbegan measured⟩⟩

variable {s : LensSystem}

theorem LensInv.start (hs : LensInv lib corpusId s) (call : Nat) :
    LensInv lib corpusId ((LensAction.start call).apply lib corpusId s) := by
  rw [LensAction.apply]
  cases s.calls call with
  | some c => exact hs
  | none =>
    exact ⟨hs.ordered, hs.cache, calls_update hs.calls call ⟨Nat.le_refl _, trivial⟩⟩

theorem LensInv.advance (hs : LensInv lib corpusId s) {next : Moment}
    (hnext : ∀ m ∈ s.timeline, Precedes m next) : LensInv lib corpusId (s.advance next) := by
  have htime : (s.advance next).time = s.time + 1 := timeline_length s
  refine ⟨?_, fun cached hcached => (hs.cache cached hcached).extend next,
    fun call began stage hcall => ?_⟩
  · show (s.timeline ++ [next]).Pairwise Precedes
    refine List.pairwise_append.mpr ⟨hs.ordered, List.pairwise_singleton _ _, ?_⟩
    intro m hm m' hm'
    rw [List.mem_singleton.mp hm']
    exact hnext m hm
  · obtain ⟨hbegan, hstage⟩ := hs.calls call began stage hcall
    exact ⟨by omega, hstage.extend next⟩

theorem LensInv.precedes_now (hs : LensInv lib corpusId s) {m : Moment} (hm : m ∈ s.timeline) :
    Precedes m s.now := by
  obtain ⟨k, hk⟩ := List.mem_iff_getElem?.mp hm
  have hlt : k < s.timeline.length := (List.getElem?_eq_some_iff.mp hk).1
  rw [timeline_length] at hlt
  exact precedes_of_le hs.ordered (by omega) hk (timeline_time s)

theorem LensInv.apply {s : LensSystem} (hs : LensInv lib corpusId s) (action : LensAction) :
    LensInv lib corpusId (action.apply lib corpusId s) := by
  cases action with
  | start call => exact hs.start call
  | step call measured => exact hs.step call measured
  | publish stamp read stored =>
    rw [LensAction.apply]
    split
    · exact hs
    · rename_i hfresh
      refine hs.advance fun m hm => ?_
      have hp := hs.precedes_now hm
      refine ⟨Nat.le_succ_of_le hp.generation, hp.revision, fun heq => ?_, hp.templates,
        fun heq => absurd ⟨m, hm, heq⟩ hfresh⟩
      have := hp.generation
      simp only at heq
      omega
  | upsertTemplates rows =>
    rw [LensAction.apply]
    split
    · exact hs
    · refine hs.advance fun m hm => ?_
      have hp := hs.precedes_now hm
      refine ⟨hp.generation, Nat.le_succ_of_le hp.revision, hp.file, fun heq => ?_, hp.identity⟩
      have := hp.revision
      simp only at heq
      omega
  | appendEvents => exact ⟨hs.ordered, hs.cache, hs.calls⟩
  | invalidate =>
    refine ⟨hs.ordered, fun cached hcached => ?_, hs.calls⟩
    cases hcached

theorem LensInv.opened (lib : SuppressionLibrary) (corpusId : String) (first : Moment)
    (eventRevision : Nat) : LensInv lib corpusId (.opened first eventRevision) := by
  refine ⟨List.pairwise_singleton _ _, fun cached hcached => ?_, fun call began stage hcall => ?_⟩
  · cases hcached
  · cases hcall

theorem LensInv.run (hs : LensInv lib corpusId s) (actions : List LensAction) :
    LensInv lib corpusId (s.run lib corpusId actions) := by
  induction actions generalizing s with
  | nil => exact hs
  | cons action rest ih => exact ih (hs.apply action)

/-- The policy that the sidecar of a moment holds. -/
def Moment.policy (lib : SuppressionLibrary) (corpusId : String) (m : Moment) :
    CoreResult SuppressionDocument :=
  loadDocumentFromRoot lib none m.file.read corpusId m.file.stored

theorem freshLens_policy {m : Moment} {eventRevision : Nat}
    (h : (freshLens lib corpusId m eventRevision).state = .resolved) :
    ∃ document, m.policy lib corpusId = .ok document ∧
      (freshLens lib corpusId m eventRevision).policyRevision = some document.revision := by
  rcases resolveLens_cases lib corpusId (m.readings eventRevision) m.templateRevision with
    ⟨hstate, -⟩ | ⟨loaded, attempt, hfrom, -, hrev⟩
  · cases hstate.symm.trans h
  · exact ⟨loaded, hfrom.loaded, hrev⟩

theorem Accounted.policy (h : Accounted lib corpusId l began settled lens)
    (hstate : lens.state = .resolved) :
    ∃ m document, Current l began settled m ∧ m.policy lib corpusId = .ok document ∧
      lens.policyRevision = some document.revision := by
  rcases h with ⟨m, eventRevision, hm, rfl⟩ | ⟨-, ⟨hnone, -⟩ | ⟨m, m', eventRevision, hm, -, heq⟩⟩
  · obtain ⟨document, hpolicy, hrev⟩ := freshLens_policy hstate
    exact ⟨m, document, hm, hpolicy, hrev⟩
  · cases hnone.symm.trans hstate
  · rw [heq] at hstate
    obtain ⟨document, hpolicy, hrev⟩ := freshLens_policy hstate
    rw [heq]
    exact ⟨m, document, hm, hpolicy, hrev⟩

theorem LensCall.outcome_eq_some {c : LensCall} (h : c.outcome = some (settled, lens)) :
    c.stage = .returned settled lens := by
  unfold LensCall.outcome at h
  split at h
  · rename_i hstage
    obtain ⟨rfl, rfl⟩ := Prod.mk.inj (Option.some.inj h)
    exact hstage
  · cases h

/-- In every interleaving, a returned lens is that of a moment of the call, but for calls that a
template upsert overtook; and no lens carries a policy older than the one current when the call
began. -/
theorem returned_lens_accounted (first : Moment) (eventRevision : Nat) (actions : List LensAction) :
    let s := (LensSystem.opened first eventRevision).run lib corpusId actions
    ∀ call c settled lens, s.calls call = some c → c.outcome = some (settled, lens) →
      settled ≤ s.time ∧ Accounted lib corpusId s.timeline c.began settled lens ∧
      (lens.state = .resolved → ∃ start m document, s.timeline[c.began]? = some start ∧
        Current s.timeline c.began settled m ∧ start.generation ≤ m.generation ∧
        m.policy lib corpusId = .ok document ∧
        lens.policyRevision = some document.revision) := by
  intro s call c settled lens hcall houtcome
  have hs : LensInv lib corpusId s := (LensInv.opened lib corpusId first eventRevision).run actions
  obtain ⟨hbegan, hstage⟩ := hs.calls call c.began c.stage hcall
  rw [LensCall.outcome_eq_some houtcome] at hstage
  obtain ⟨hsettled, haccounted⟩ := hstage
  have hlen := timeline_length s
  refine ⟨by omega, haccounted, fun hstate => ?_⟩
  obtain ⟨m, document, hm, hpolicy, hrev⟩ := haccounted.policy hstate
  obtain ⟨start, hstart⟩ : ∃ start, s.timeline[c.began]? = some start :=
    ⟨_, List.getElem?_eq_getElem (by omega)⟩
  obtain ⟨k, hk, hks, hat⟩ := id hm
  exact ⟨start, m, document, hstart, hm, (precedes_of_le hs.ordered hk hstart hat).generation,
    hpolicy, hrev⟩

/-! ## One rule, one call -/

/-- A policy with one enabled rule, whose template has the fingerprint of the rule. -/
def healthMoment : Moment where
  generation := 0
  file :=
    { identity := .present { len := 4096, modifiedNs := some 1700000000, device := 1, inode := 11 }
      read := none
      stored := some (reachedDocument plainLibrary "corpus-1" healthCalls) }
  templates := quietSurroundings.templates 0
  templateRevision := 1

def quietCall : List LensAction := .start 0 :: List.replicate 20 (.step 0 true)

/-- A call that has read the identities when another template is upserted. -/
def overtakenCall : List LensAction :=
  .start 0 :: List.replicate 13 (.step 0 true) ++
    .upsertTemplates [(9, "sha256:template-nine")] :: List.replicate 6 (.step 0 true)

def healthLens : TrustedSuppressionLens where
  corpusId := "corpus-1"
  state := .resolved
  reason := none
  templateIds := [7]
  policyRevision := some 2
  eventRevision := 1
  templateAnalysisRevision := 1

theorem returned_lens_accounted_quiet :
    ∃ c, ((LensSystem.opened healthMoment 1).run plainLibrary "corpus-1" quietCall).calls 0 =
        some c ∧ c.outcome = some (0, healthLens) ∧
      Accounted plainLibrary "corpus-1"
        ((LensSystem.opened healthMoment 1).run plainLibrary "corpus-1" quietCall).timeline
        c.began 0 healthLens := by
  have h : (((LensSystem.opened healthMoment 1).run plainLibrary "corpus-1" quietCall).calls 0).bind
      LensCall.outcome = some (0, healthLens) := by decide +kernel
  obtain ⟨c, hc, houtcome⟩ := Option.bind_eq_some_iff.mp h
  exact ⟨c, hc, houtcome, (returned_lens_accounted healthMoment 1 quietCall 0 c 0 healthLens hc
    houtcome).2.1⟩

/-- The overtaken call returns a lens that no moment has. -/
theorem overtaken_lens_of_no_moment :
    ∃ c settled lens,
      ((LensSystem.opened healthMoment 1).run plainLibrary "corpus-1" overtakenCall).calls 0 =
        some c ∧ c.outcome = some (settled, lens) ∧
      ∀ m ∈ ((LensSystem.opened healthMoment 1).run plainLibrary "corpus-1" overtakenCall).timeline,
        ∀ eventRevision, lens ≠ freshLens plainLibrary "corpus-1" m eventRevision := by
  have h : ((((LensSystem.opened healthMoment 1).run plainLibrary "corpus-1" overtakenCall).calls
      0).bind LensCall.outcome).map (fun outcome => outcome.2.state) = some .unavailable := by
    decide +kernel
  obtain ⟨⟨settled, lens⟩, hout, hstate⟩ := Option.map_eq_some_iff.mp h
  obtain ⟨c, hc, houtcome⟩ := Option.bind_eq_some_iff.mp hout
  have hmoments : ((LensSystem.opened healthMoment 1).run plainLibrary "corpus-1"
      overtakenCall).timeline.all (fun m => (freshLens plainLibrary "corpus-1" m 0).state =
        .resolved) = true := by decide +kernel
  refine ⟨c, settled, lens, hc, houtcome, fun m hm eventRevision heq => ?_⟩
  have hresolved := of_decide_eq_true (List.all_eq_true.mp hmoments m hm)
  rw [heq, freshLens_eventRevision m 0 eventRevision, hresolved] at hstate
  cases hstate

end ContextDesk.LogAnalysis
