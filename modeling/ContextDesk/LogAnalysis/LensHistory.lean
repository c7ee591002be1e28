import ContextDesk.LogAnalysis.LensInterleaving

/-!
# What a call may return

A moment precedes a later one with a smaller or equal generation and revision (`Precedes`), and
equal numbers name equal contents. The cache keys therefore name one moment, and a cached lens is
the lens of that moment (`Stamped`): it was stored after the sidecar and the revision were found
unchanged. A call that nothing overtakes returns the lens of one of its moments (`Fresh`); one that
a template upsert overtakes returns nothing to hide, or the lens of a sidecar and of identities
that were current during the call, perhaps not at the same time (`Composed`).

`StageInv` carries this through the stages of a call, `LensInv` through the runs of the system.
-/

namespace ContextDesk.LogAnalysis

open Lib
open scoped Lib.WordOrder

variable {lib : SuppressionLibrary} {corpusId : String}

/-! ## The order of moments -/

structure Precedes (m m' : Moment) : Prop where
  generation : m.generation ≤ m'.generation
  revision : m.templateRevision ≤ m'.templateRevision
  file : m.generation = m'.generation → m.file = m'.file
  templates : m.templateRevision = m'.templateRevision → m.templates = m'.templates
  identity : m.file.identity = m'.file.identity → m.generation = m'.generation

theorem Precedes.refl (m : Moment) : Precedes m m :=
  ⟨Nat.le_refl _, Nat.le_refl _, fun _ => rfl, fun _ => rfl, fun _ => rfl⟩

theorem Precedes.eq {m m' : Moment} (h : Precedes m m')
    (hidentity : m.file.identity = m'.file.identity)
    (hrevision : m.templateRevision = m'.templateRevision) : m = m' := by
  have hgeneration := h.identity hidentity
  have hfile := h.file hgeneration
  have htemplates := h.templates hrevision
  cases m
  cases m'
  simp_all

variable {l : List Moment} {i j : Nat} {a b : Moment}

theorem precedes_of_le (h : l.Pairwise Precedes) (hij : i ≤ j) (hi : l[i]? = some a)
    (hj : l[j]? = some b) : Precedes a b :=
  rel_of_le Precedes.refl h hij hi hj

theorem generation_between (h : l.Pairwise Precedes) {c : Moment} (hi : l[i]? = some a)
    (hj : l[j]? = some c) (hends : a.generation = c.generation) (hb : Current l i j b) :
    b.generation = a.generation :=
  version_between (h.imp fun hp => hp.generation) hi hj hends hb

theorem revision_between (h : l.Pairwise Precedes) {c : Moment} (hi : l[i]? = some a)
    (hj : l[j]? = some c) (hends : a.templateRevision = c.templateRevision) (hb : Current l i j b) :
    b.templateRevision = a.templateRevision :=
  version_between (h.imp fun hp => hp.revision) hi hj hends hb

/-! ## Readings -/

def Reading.Reads (m : Moment) (r : LensReadings) : Reading → Prop
  | .file => r.root = none ∧ r.read = m.file.read ∧ r.sidecar = m.file.stored
  | .before k => (r.attempt k).before = m.templateRevision
  | .templates k => (r.attempt k).templates = m.templates
  | .after k => (r.attempt k).after = m.templateRevision
  | .revisionBefore => r.revisionBefore = m.templateRevision
  | .revisionAfter => r.revisionAfter = m.templateRevision
  | .eventRevision => True

theorem Reading.mem_script (reading : Reading) : reading ∈ Reading.script := by
  cases reading <;> simp [script]

theorem Reading.reads_read (reading : Reading) (m : Moment) (eventRevision : Nat)
    (r : LensReadings) : reading.Reads m (reading.read m eventRevision r) := by
  cases reading <;> simp [Reads, read]

theorem update_field {β γ : Type} {n : Nat} (field : β → γ) {g : Fin n → β} {k : Fin n} {b : β}
    (k' : Fin n) (h : k' = k → field b = field (g k)) :
    field (Function.update g k b k') = field (g k') := by
  by_cases hk : k' = k
  · subst hk
    rw [Function.update_self, h rfl]
  · rw [Function.update_of_ne hk]

/-- A reading keeps what the others have read. -/
theorem Reading.Reads.keep {reading other : Reading} {m m' : Moment} {eventRevision : Nat}
    {r : LensReadings} (h : reading.Reads m r) (hne : reading ≠ other) :
    reading.Reads m (other.read m' eventRevision r) := by
  cases other with
  | before k =>
    cases reading with
    | before k' =>
      exact (update_field TemplateAttempt.before k'
        fun heq => absurd (congrArg Reading.before heq) hne).trans h
    | templates k' =>
      refine Eq.trans (update_field TemplateAttempt.templates k' ?_) h
      exact fun _ => rfl
    | after k' =>
      refine Eq.trans (update_field TemplateAttempt.after k' ?_) h
      exact fun _ => rfl
    | _ => exact h
  | templates k =>
    cases reading with
    | before k' =>
      refine Eq.trans (update_field TemplateAttempt.before k' ?_) h
      exact fun _ => rfl
    | templates k' =>
      exact (update_field TemplateAttempt.templates k'
        fun heq => absurd (congrArg Reading.templates heq) hne).trans h
    | after k' =>
      refine Eq.trans (update_field TemplateAttempt.after k' ?_) h
      exact fun _ => rfl
    | _ => exact h
  | after k =>
    cases reading with
    | before k' =>
      refine Eq.trans (update_field TemplateAttempt.before k' ?_) h
      exact fun _ => rfl
    | templates k' =>
      refine Eq.trans (update_field TemplateAttempt.templates k' ?_) h
      exact fun _ => rfl
    | after k' =>
      exact (update_field TemplateAttempt.after k'
        fun heq => absurd (congrArg Reading.after heq) hne).trans h
    | _ => exact h
  | _ => cases reading <;> first | exact absurd rfl hne | exact h

/-- Every reading but those still to do was taken at some time from `i` to `j`. -/
def ReadDuring (l : List Moment) (i j : Nat) (todo : List Reading) (r : LensReadings) : Prop :=
  ∀ reading, reading ∉ todo → ∃ m, Current l i j m ∧ reading.Reads m r

theorem ReadDuring.next {l : List Moment} {i j : Nat} {reading : Reading} {todo : List Reading}
    {r : LensReadings} {m : Moment} (h : ReadDuring l i j (reading :: todo) r)
    (hm : Current l i j m) (eventRevision : Nat) :
    ReadDuring l i j todo (reading.read m eventRevision r) := by
  intro other hother
  by_cases heq : other = reading
  · subst heq
    exact ⟨m, hm, other.reads_read m eventRevision r⟩
  · obtain ⟨m', hm', hreads⟩ := h other (by simp [heq, hother])
    exact ⟨m', hm', hreads.keep heq⟩

/-- Readings during which the revision did not move are those of one moment. -/
theorem ReadDuring.steady (hl : l.Pairwise Precedes) {r : LensReadings}
    (h : ReadDuring l i j [] r) {first last : Moment} (hi : l[i]? = some first)
    (hj : l[j]? = some last) (hrev : first.templateRevision = last.templateRevision) :
    ∃ m, Current l i j m ∧ m.templateRevision = first.templateRevision ∧
      r = m.readings r.eventRevision := by
  have hsame : ∀ {m}, Current l i j m → m.templateRevision = first.templateRevision ∧
      m.templates = first.templates := by
    intro m hm
    have heq := revision_between hl hi hj hrev hm
    obtain ⟨k, hik, -, hk⟩ := hm
    exact ⟨heq, ((precedes_of_le hl hik hi hk).templates heq.symm).symm⟩
  have hread : ∀ reading : Reading, ∃ m, Current l i j m ∧ reading.Reads m r := fun reading =>
    h reading (by simp)
  obtain ⟨m, hm, hroot, hfile, hsidecar⟩ := hread .file
  obtain ⟨hmrev, hmtemplates⟩ := hsame hm
  refine ⟨m, hm, hmrev, ?_⟩
  have hattempt : r.attempt = fun _ => ⟨m.templateRevision, m.templates, m.templateRevision⟩ := by
    funext k
    obtain ⟨mb, hmb, hbefore⟩ := hread (.before k)
    obtain ⟨mt, hmt, htemplates⟩ := hread (.templates k)
    obtain ⟨ma, hma, hafter⟩ := hread (.after k)
    have hb : (r.attempt k).before = m.templateRevision := by
      rw [hmrev, ← (hsame hmb).1]
      exact hbefore
    have ht : (r.attempt k).templates = m.templates := by
      rw [hmtemplates, ← (hsame hmt).2]
      exact htemplates
    have ha : (r.attempt k).after = m.templateRevision := by
      rw [hmrev, ← (hsame hma).1]
      exact hafter
    show (⟨(r.attempt k).before, (r.attempt k).templates, (r.attempt k).after⟩ :
      TemplateAttempt) = _
    rw [hb, ht, ha]
  obtain ⟨mb, hmb, hbefore⟩ := hread .revisionBefore
  obtain ⟨ma, hma, hafter⟩ := hread .revisionAfter
  have hb : r.revisionBefore = m.templateRevision := by
    rw [hmrev, ← (hsame hmb).1]
    exact hbefore
  have ha : r.revisionAfter = m.templateRevision := by
    rw [hmrev, ← (hsame hma).1]
    exact hafter
  cases r
  simp_all [Moment.readings]

/-! ## Lenses -/

/-- The lens of a moment of the call, at some event revision. -/
def Fresh (lib : SuppressionLibrary) (corpusId : String) (l : List Moment) (began settled : Nat)
    (lens : TrustedSuppressionLens) : Prop :=
  ∃ m eventRevision, Current l began settled m ∧ lens = freshLens lib corpusId m eventRevision

/-- The lens of the moment that the cache keys name. -/
def Stamped (lib : SuppressionLibrary) (corpusId : String) (l : List Moment)
    (sidecar : SidecarIdentity) (revision : Nat) (lens : TrustedSuppressionLens) : Prop :=
  ∃ (k : Nat) (m : Moment) (eventRevision : Nat), l[k]? = some m ∧ m.file.identity = sidecar ∧
    m.templateRevision = revision ∧ lens = freshLens lib corpusId m eventRevision

/-- Templates changed after the call had read the revision that its lens is stamped with. -/
def Overtaken (l : List Moment) (began settled : Nat) (lens : TrustedSuppressionLens) : Prop :=
  ∃ m m', Current l began settled m ∧ Current l began settled m' ∧
    m.templateRevision = lens.templateAnalysisRevision ∧ m.templateRevision < m'.templateRevision

/-- The lens of a sidecar and of identities that were current during the call, but for the
revision it is stamped with. -/
def Composed (lib : SuppressionLibrary) (corpusId : String) (l : List Moment)
    (began settled : Nat) (lens : TrustedSuppressionLens) : Prop :=
  ∃ m m' eventRevision, Current l began settled m ∧ Current l began settled m' ∧
    lens =
      { freshLens lib corpusId
          { m with templates := m'.templates, templateRevision := m'.templateRevision }
          eventRevision with
        templateAnalysisRevision := lens.templateAnalysisRevision }

def Accounted (lib : SuppressionLibrary) (corpusId : String) (l : List Moment)
    (began settled : Nat) (lens : TrustedSuppressionLens) : Prop :=
  Fresh lib corpusId l began settled lens ∨
    Overtaken l began settled lens ∧
      ((lens.state = .unavailable ∧ lens.templateIds = [] ∧ lens.policyRevision = none) ∨
        Composed lib corpusId l began settled lens)

/-- The event revision is only reported. -/
theorem freshLens_eventRevision (m : Moment) (eventRevision eventRevision' : Nat) :
    freshLens lib corpusId m eventRevision' =
      { freshLens lib corpusId m eventRevision with eventRevision := eventRevision' } := by
  have hsame : resolvedTemplates lib corpusId (m.readings eventRevision) =
      resolvedTemplates lib corpusId (m.readings eventRevision') := rfl
  unfold freshLens resolveLens
  rw [hsame]
  split <;> rfl

theorem restamp_fresh (m : Moment) (eventRevision eventRevision' : Nat) :
    restampEventRevision (freshLens lib corpusId m eventRevision) eventRevision' =
      freshLens lib corpusId m eventRevision' := by
  rw [freshLens_eventRevision m eventRevision eventRevision']
  unfold restampEventRevision
  split
  · rename_i hrev
    rw [← hrev]
  · rfl

theorem Fresh.restamp {began settled : Nat} {lens : TrustedSuppressionLens}
    (h : Fresh lib corpusId l began settled lens) (eventRevision : Nat) :
    Fresh lib corpusId l began settled (restampEventRevision lens eventRevision) := by
  obtain ⟨m, eventRevision', hm, rfl⟩ := h
  exact ⟨m, eventRevision, hm, restamp_fresh m eventRevision' eventRevision⟩

theorem stableAttempt_mem {attempts : List TemplateAttempt} {attempt : TemplateAttempt}
    (h : stableAttempt attempts = some attempt) : attempt ∈ attempts :=
  List.mem_of_find?_eq_some h

theorem composed_of_reads {r : LensReadings} (h : ReadDuring l i j [] r) (revision : Nat) :
    let lens := resolveLens lib corpusId r revision
    (lens.state = .unavailable ∧ lens.templateIds = [] ∧ lens.policyRevision = none) ∨
      Composed lib corpusId l i j lens := by
  rcases resolveLens_cases lib corpusId r revision with hnone | ⟨loaded, attempt, hfrom, -⟩
  · exact .inl hnone
  · refine .inr ?_
    obtain ⟨m, hm, hroot, hread, hsidecar⟩ := h .file (by simp)
    obtain ⟨k, rfl⟩ := (List.mem_ofFn' _ _).mp (stableAttempt_mem hfrom.stable)
    obtain ⟨m', hm', htemplates⟩ := h (.templates k) (by simp)
    refine ⟨m, m', r.eventRevision, hm, hm', ?_⟩
    have hloaded := hfrom.loaded
    rw [hroot, hread, hsidecar] at hloaded
    have hauthorized := hfrom.authorized
    rw [show (r.attempt k).templates = m'.templates from htemplates] at hauthorized
    have hfresh : ResolvedFrom lib corpusId
        (Moment.readings { m with
          templates := m'.templates, templateRevision := m'.templateRevision } r.eventRevision)
        loaded ⟨m'.templateRevision, m'.templates, m'.templateRevision⟩
        (resolveLens lib corpusId r revision).templateIds := by
      refine ⟨hloaded, ?_, rfl, rfl, hfrom.increasing, hfrom.bounded, hauthorized⟩
      simp [stableAttempt, Moment.readings, maxResolutionAttempts]
    rw [freshLens, resolveLens_of _ hfresh, resolveLens_revision]
    exact resolveLens_of revision hfrom

end ContextDesk.LogAnalysis
