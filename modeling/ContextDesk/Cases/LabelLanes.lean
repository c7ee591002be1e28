import ContextDesk.Cases.ContributionRuns
import ContextDesk.Cases.Labels

/-!
# Protected labels do not show

Two stores that agree on a case as far as it is public: its public artifacts, the public label
events on them, the intents of the callers and the timeline. Calls that may not read what is private
cannot tell them apart: every reading of a call (`readBulk`) is the same on a public artifact, its
writes are public and the same, and so the stores agree after it.
-/

namespace ContextDesk

open Lib List

/-! ## What is public -/

def LabelDb.publicArtifact (s : LabelDb) (caseId artifactId : JsString) : Option ArtifactRow :=
  (s.artifactOf caseId artifactId).filter (·.privacyClass = .share_safe)

/-- A public label event on a public artifact. -/
def LabelDb.isPublicEvent (s : LabelDb) (caseId : JsString) (row : ArtifactAnnotationRow) : Bool :=
  row.labelEvent.isSome ∧ row.privacyClass = .share_safe ∧
    (s.publicArtifact caseId row.artifactId).isSome

def LabelDb.PublicEvent (s : LabelDb) (caseId : JsString) (row : ArtifactAnnotationRow) : Prop :=
  row ∈ s.artifactAnnotations.rows ∧ row.caseId = caseId ∧ s.isPublicEvent caseId row = true

/-- Stores that are the same to callers who may not read what is private. -/
structure LabelsAgree (caseId : JsString) (callers : JsString → Prop) (s t : LabelDb) : Prop where
  present : (s.db.cases caseId).isSome = (t.db.cases caseId).isSome
  artifact : ∀ artifactId, s.publicArtifact caseId artifactId = t.publicArtifact caseId artifactId
  event : ∀ row, s.PublicEvent caseId row ↔ t.PublicEvent caseId row
  intent : ∀ actorId key, callers actorId →
    s.artifactAnnotationBulkIntents (caseId, actorId, key) =
      t.artifactAnnotationBulkIntents (caseId, actorId, key)
  timeline : s.db.timeline caseId = t.db.timeline caseId

/-- `LabelsAgree`, and every other row has an id among the hidden ones. -/
structure SameLanes (caseId : JsString) (callers hidden : JsString → Prop) (s t : LabelDb) : Prop
    extends LabelsAgree caseId callers s t where
  hiddenLeft : ∀ row ∈ s.artifactAnnotations.rows, ¬ s.PublicEvent caseId row → hidden row.id
  hiddenRight : ∀ row ∈ t.artifactAnnotations.rows, ¬ t.PublicEvent caseId row → hidden row.id

/-! ## Labels of one artifact -/

variable {key : LabelKey}

theorem mem_applyEvent_self {active : List LabelKey} {event : EvidenceLabelEventV1} :
    key ∈ applyEvent active (key, event) ↔ event.operation = .add := by
  unfold applyEvent
  cases hoperation : event.operation with
  | add =>
    simp only [hoperation, iff_true]
    split
    · assumption
    · exact mem_append_right _ (mem_singleton_self key)
  | remove => simp [hoperation]

theorem mem_applyEvent_of_ne {key' : LabelKey} {active : List LabelKey}
    {event : EvidenceLabelEventV1} (h : key' ≠ key) :
    key ∈ applyEvent active (key', event) ↔ key ∈ active := by
  unfold applyEvent
  cases hoperation : event.operation with
  | add =>
    simp only [hoperation]
    split
    · rfl
    · simp [h.symm]
  | remove => simp [hoperation, h.symm]

/-- Whether a label is present depends on its own events. -/
theorem mem_applyEvents {events : List (LabelKey × EvidenceLabelEventV1)} :
    ∀ {active active' : List LabelKey}, (key ∈ active ↔ key ∈ active') →
      (key ∈ events.foldl applyEvent active ↔
        key ∈ (events.filter (·.1 = key)).foldl applyEvent active') := by
  induction events with
  | nil => exact fun h => h
  | cons event events ih =>
    intro active active' h
    obtain ⟨key', event⟩ := event
    rw [foldl_cons, filter_cons]
    by_cases hkey : key' = key
    · subst hkey
      rw [if_pos (decide_eq_true rfl), foldl_cons]
      exact ih (mem_applyEvent_self.trans mem_applyEvent_self.symm)
    · rw [if_neg (by simpa using hkey)]
      exact ih ((mem_applyEvent_of_ne hkey).trans h)

theorem compares_sequence :
    Compares fun a b : LabelKey × EvidenceLabelEventV1 => decide (a.2.sequence ≤ b.2.sequence) where
  trans a b c hab hbc := by
    rw [decide_eq_true_eq] at *
    omega
  total a b := by
    rw [Bool.or_eq_true, decide_eq_true_eq, decide_eq_true_eq]
    omega

theorem mem_projectEvidenceLabels {history : List ArtifactAnnotationRow}
    {artifactId label : JsString} :
    (⟨artifactId, label⟩ : EvidenceLabelStateV1) ∈ projectEvidenceLabels history ↔
      ∃ privacy, (artifactId, label, privacy) ∈ (orderedEvents history).foldl applyEvent [] := by
  unfold projectEvidenceLabels
  dsimp only
  rw [mem_mergeSort, mem_eraseDups, mem_map]
  constructor
  · rintro ⟨⟨artifactId', label', privacy⟩, hmem, heq⟩
    cases heq
    exact ⟨privacy, hmem⟩
  · rintro ⟨privacy, hmem⟩
    exact ⟨_, hmem, rfl⟩

theorem filter_filterMap_filter {α β : Type} {f : α → Option β} {p : α → Bool} {q : β → Bool}
    {l : List α} (h : ∀ a b, f a = some b → q b = true → p a = true) :
    ((l.filter p).filterMap f).filter q = (l.filterMap f).filter q := by
  induction l with
  | nil => rfl
  | cons a l ih =>
    by_cases ha : p a = true
    · rw [filter_cons_of_pos ha]
      cases hf : f a with
      | none => rw [filterMap_cons_none hf, filterMap_cons_none hf, ih]
      | some b =>
        rw [filterMap_cons_some hf, filterMap_cons_some hf, filter_cons,
          filter_cons, ih]
    · rw [filter_cons_of_neg ha, ih]
      cases hf : f a with
      | none => rw [filterMap_cons_none hf]
      | some b =>
        rw [filterMap_cons_some hf, filter_cons_of_neg]
        exact fun hb => ha (h a b hf hb)

/-- The labels of an artifact are those of its own label events. -/
theorem mem_projectEvidenceLabels_own {history : List ArtifactAnnotationRow}
    {artifactId label : JsString} :
    (⟨artifactId, label⟩ : EvidenceLabelStateV1) ∈ projectEvidenceLabels history ↔
      (⟨artifactId, label⟩ : EvidenceLabelStateV1) ∈ projectEvidenceLabels
        (history.filter fun row => row.labelEvent.isSome ∧ row.artifactId = artifactId) := by
  rw [mem_projectEvidenceLabels, mem_projectEvidenceLabels]
  refine exists_congr fun privacy => ?_
  refine (mem_applyEvents Iff.rfl).trans (Iff.trans ?_ (mem_applyEvents Iff.rfl).symm)
  unfold orderedEvents
  rw [filter_mergeSort compares_sequence, filter_mergeSort compares_sequence,
    filter_filterMap_filter]
  intro row event hevent hkey
  obtain ⟨e, he, rfl⟩ := Option.map_eq_some_iff.mp hevent
  simp only [decide_eq_true_eq, Prod.mk.injEq] at hkey ⊢
  rw [he]
  exact ⟨rfl, hkey.1⟩

/-! ## Readings of what is public -/

/-- The public events, as the store lists them. -/
def publicEvents (order : AnnotationOrder) (s : LabelDb) (caseId : JsString) :
    List ArtifactAnnotationRow :=
  (listArtifactAnnotationsByCase order s caseId).filter (s.isPublicEvent caseId)

section

variable {order : AnnotationOrder} {caseId : JsString} {callers hidden : JsString → Prop}
  {s t : LabelDb}

theorem mem_publicEvents {row : ArtifactAnnotationRow} :
    row ∈ publicEvents order s caseId ↔ s.PublicEvent caseId row := by
  rw [publicEvents, mem_filter, listArtifactAnnotationsByCase, mem_mergeSort,
    mem_filter, decide_eq_true_eq, and_assoc]
  rfl

theorem AnnotationTable.nodup (table : AnnotationTable) : table.rows.Nodup :=
  .of_map _ table.distinct

theorem nodup_publicEvents : (publicEvents order s caseId).Nodup :=
  (((s.artifactAnnotations.nodup.filter _).perm (mergeSort_perm _ _).symm).filter _)

theorem LabelsAgree.publicEvents (h : LabelsAgree caseId callers s t) :
    publicEvents order s caseId = publicEvents order t caseId := by
  have hsorted : ∀ s : LabelDb,
      (ContextDesk.publicEvents order s caseId).Pairwise fun a b => order.before a b = true :=
    fun s => (pairwise_mergeSort order.compares.trans order.compares.total _).filter _
  refine eq_of_sorted (hsorted s) (hsorted t) ?_ ?_
  · refine (perm_ext_iff_of_nodup nodup_publicEvents nodup_publicEvents).mpr fun row => ?_
    rw [mem_publicEvents, mem_publicEvents]
    exact h.event row
  · intro a ha b hb hab hba
    exact inj_on_of_nodup_map s.artifactAnnotations.distinct (mem_publicEvents.mp ha).1
      (mem_publicEvents.mp hb).1 (order.eq_of_before a b hab hba)

theorem lane_of_public {artifactId : JsString} (h : (s.publicArtifact caseId artifactId).isSome) :
    (listArtifactAnnotationsByCase order s caseId).filter (fun row =>
        row.artifactId = artifactId ∧ row.privacyClass = .share_safe ∧ row.labelEvent.isSome) =
      (publicEvents order s caseId).filter (·.artifactId = artifactId) := by
  rw [ContextDesk.publicEvents, filter_filter]
  refine filter_congr fun row _ => ?_
  by_cases hrow : row.artifactId = artifactId
  · subst hrow
    simp only [LabelDb.isPublicEvent, h, decide_true, Bool.true_and, and_true, true_and,
      Bool.decide_and, Bool.decide_eq_true]
    exact Bool.and_comm _ _
  · simp [hrow]

theorem lastSequence_eq (history : List ArtifactAnnotationRow) (artifactId : JsString)
    (privacy : PrivacyClass) :
    lastSequence history artifactId privacy =
      ((history.filter fun row => row.artifactId = artifactId ∧ row.privacyClass = privacy ∧
        row.labelEvent.isSome).filterMap fun row =>
          row.labelEvent.map (·.sequence)).foldl max 0 := by
  unfold lastSequence
  rw [filterMap_filter, filterMap_filter]
  refine congrArg (fun f => (history.filterMap f).foldl max 0) (funext fun row => ?_)
  by_cases hlane : row.artifactId = artifactId ∧ row.privacyClass = privacy
  · rw [if_pos (decide_eq_true hlane)]
    cases hevent : row.labelEvent with
    | none => split <;> rfl
    | some event => rw [if_pos (decide_eq_true ⟨hlane.1, hlane.2, rfl⟩)]
  · rw [if_neg (by simpa using hlane), if_neg]
    intro h
    exact hlane ⟨(of_decide_eq_true h).1, (of_decide_eq_true h).2.1⟩

theorem LabelsAgree.lastSequence (h : LabelsAgree caseId callers s t) {artifactId : JsString}
    (hpublic : (s.publicArtifact caseId artifactId).isSome) :
    lastSequence (listArtifactAnnotationsByCase order s caseId) artifactId .share_safe =
      lastSequence (listArtifactAnnotationsByCase order t caseId) artifactId .share_safe := by
  rw [lastSequence_eq, lastSequence_eq, lane_of_public hpublic,
    lane_of_public (h.artifact artifactId ▸ hpublic), h.publicEvents]

theorem LabelsAgree.current (h : LabelsAgree caseId callers s t) {artifactId label : JsString}
    (hpublic : (s.publicArtifact caseId artifactId).isSome) :
    (⟨artifactId, label⟩ : EvidenceLabelStateV1) ∈ projectEvidenceLabels
        ((listArtifactAnnotationsByCase order s caseId).filter (·.privacyClass = .share_safe)) ↔
      (⟨artifactId, label⟩ : EvidenceLabelStateV1) ∈ projectEvidenceLabels
        ((listArtifactAnnotationsByCase order t caseId).filter (·.privacyClass = .share_safe)) := by
  have hlane : ∀ s : LabelDb,
      ((listArtifactAnnotationsByCase order s caseId).filter (·.privacyClass = .share_safe)).filter
          (fun row => row.labelEvent.isSome ∧ row.artifactId = artifactId) =
        (listArtifactAnnotationsByCase order s caseId).filter (fun row =>
          row.artifactId = artifactId ∧ row.privacyClass = .share_safe ∧
            row.labelEvent.isSome) := by
    intro s
    rw [filter_filter]
    refine filter_congr fun row _ => ?_
    rw [← Bool.decide_and]
    exact decide_eq_decide.mpr (by tauto)
  refine mem_projectEvidenceLabels_own.trans (Iff.trans ?_ mem_projectEvidenceLabels_own.symm)
  rw [hlane, hlane, lane_of_public hpublic, lane_of_public (h.artifact artifactId ▸ hpublic),
    h.publicEvents]

end

/-! ## Writes that are public -/

section

variable {caseId : JsString} {callers hidden : JsString → Prop} {s t : LabelDb}

variable {s' : LabelDb}

theorem publicArtifact_congr (h : s'.db.artifacts = s.db.artifacts) (artifactId : JsString) :
    s'.publicArtifact caseId artifactId = s.publicArtifact caseId artifactId := by
  unfold LabelDb.publicArtifact LabelDb.artifactOf
  rw [h]

theorem isPublicEvent_congr (h : s'.db.artifacts = s.db.artifacts) (row : ArtifactAnnotationRow) :
    s'.isPublicEvent caseId row = s.isPublicEvent caseId row := by
  unfold LabelDb.isPublicEvent
  rw [publicArtifact_congr h]

theorem publicEvent_congr (hartifacts : s'.db.artifacts = s.db.artifacts)
    (hrows : s'.artifactAnnotations = s.artifactAnnotations) (row : ArtifactAnnotationRow) :
    s'.PublicEvent caseId row ↔ s.PublicEvent caseId row := by
  unfold LabelDb.PublicEvent
  rw [hrows, isPublicEvent_congr hartifacts]

/-- Stores that agree, from two stores by writes that keep the artifacts. -/
structure StoresAlike (caseId : JsString) (callers hidden : JsString → Prop) (s t s' t' : LabelDb) :
    Prop where
  lanes : SameLanes caseId callers hidden s' t'
  left : s'.db.artifacts = s.db.artifacts
  right : t'.db.artifacts = t.db.artifacts

/-- A row that is public wherever it is stored. -/
structure PublicRow (caseId : JsString) (s : LabelDb) (row : ArtifactAnnotationRow) : Prop where
  inCase : row.caseId = caseId
  event : row.labelEvent.isSome = true
  privacyClass : row.privacyClass = .share_safe
  artifact : (s.publicArtifact caseId row.artifactId).isSome = true

variable {row : ArtifactAnnotationRow}

theorem PublicRow.isPublicEvent (h : PublicRow caseId s row) : s.isPublicEvent caseId row = true :=
  decide_eq_true ⟨h.event, h.privacyClass, h.artifact⟩

theorem artifactOf_of_public {artifactId : JsString}
    (h : (s.publicArtifact caseId artifactId).isSome) : (s.artifactOf caseId artifactId).isSome := by
  obtain ⟨artifact, hartifact⟩ := Option.isSome_iff_exists.mp h
  rw [(Option.filter_eq_some_iff.mp hartifact).1]
  rfl

theorem SameLanes.mem_ids (h : SameLanes caseId callers hidden s t) {id : JsString}
    (hid : ¬ hidden id) :
    id ∈ s.artifactAnnotations.rows.map (·.id) ↔ id ∈ t.artifactAnnotations.rows.map (·.id) := by
  constructor
  · intro hmem
    obtain ⟨row, hrow, rfl⟩ := mem_map.mp hmem
    have hpublic : s.PublicEvent caseId row := by
      by_contra hne
      exact hid (h.hiddenLeft row hrow hne)
    exact mem_map_of_mem ((h.event row).mp hpublic).1
  · intro hmem
    obtain ⟨row, hrow, rfl⟩ := mem_map.mp hmem
    have hpublic : t.PublicEvent caseId row := by
      by_contra hne
      exact hid (h.hiddenRight row hrow hne)
    exact mem_map_of_mem ((h.event row).mpr hpublic).1

theorem insertArtifactAnnotation_cases (h : PublicRow caseId s row) :
    (row.id ∈ s.artifactAnnotations.rows.map (·.id) ∧ insertArtifactAnnotation s row =
      .error (.error "artifact annotation already exists")) ∨
    (row.id ∉ s.artifactAnnotations.rows.map (·.id) ∧ ∃ s',
      insertArtifactAnnotation s row = .ok s' ∧ s'.db = s.db ∧
      s'.artifactAnnotationBulkIntents = s.artifactAnnotationBulkIntents ∧
      s'.artifactAnnotations.rows = s.artifactAnnotations.rows ++ [row]) := by
  have hartifact : ¬ (s.artifactOf row.caseId row.artifactId).isNone = true := by
    rw [h.inCase, Option.isNone_iff_eq_none]
    exact Option.isSome_iff_ne_none.mp (artifactOf_of_public h.artifact)
  unfold insertArtifactAnnotation
  rw [if_neg hartifact]
  by_cases hid : row.id ∈ s.artifactAnnotations.rows.map (·.id)
  · rw [dif_pos hid]
    exact .inl ⟨hid, rfl⟩
  · rw [dif_neg hid]
    exact .inr ⟨hid, _, rfl, rfl, rfl, rfl⟩

theorem publicEvent_append {new : ArtifactAnnotationRow} (hnew : PublicRow caseId s new)
    (hdb : s'.db = s.db)
    (hrows : s'.artifactAnnotations.rows = s.artifactAnnotations.rows ++ [new]) :
    s'.PublicEvent caseId row ↔ s.PublicEvent caseId row ∨ row = new := by
  unfold LabelDb.PublicEvent
  rw [hrows, isPublicEvent_congr (congrArg CaseDb.artifacts hdb), mem_append,
    mem_singleton]
  constructor
  · rintro ⟨hmem | rfl, hcase, hpublic⟩
    · exact .inl ⟨hmem, hcase, hpublic⟩
    · exact .inr rfl
  · rintro (⟨hmem, hcase, hpublic⟩ | rfl)
    · exact ⟨.inl hmem, hcase, hpublic⟩
    · exact ⟨.inr rfl, hnew.inCase, hnew.isPublicEvent⟩

theorem hidden_append {new : ArtifactAnnotationRow} (hnew : PublicRow caseId s new)
    (hdb : s'.db = s.db)
    (hrows : s'.artifactAnnotations.rows = s.artifactAnnotations.rows ++ [new])
    (hhidden : ∀ row ∈ s.artifactAnnotations.rows, ¬ s.PublicEvent caseId row → hidden row.id)
    (row : ArtifactAnnotationRow) (hrow : row ∈ s'.artifactAnnotations.rows)
    (hne : ¬ s'.PublicEvent caseId row) : hidden row.id := by
  rw [publicEvent_append hnew hdb hrows, not_or] at hne
  rw [hrows, mem_append, mem_singleton] at hrow
  rcases hrow with hrow | rfl
  · exact hhidden row hrow hne.1
  · exact (hne.2 rfl).elim

theorem insert_alike (h : SameLanes caseId callers hidden s t) (hrow : PublicRow caseId s row)
    (hid : ¬ hidden row.id) :
    Alike (StoresAlike caseId callers hidden s t) ( insertArtifactAnnotation s row)
      ( insertArtifactAnnotation t row) := by
  have hrow' : PublicRow caseId t row :=
    ⟨hrow.inCase, hrow.event, hrow.privacyClass, h.artifact _ ▸ hrow.artifact⟩
  rcases insertArtifactAnnotation_cases hrow with ⟨hmem, hs⟩ | ⟨hfree, s', hs, hdb, hintents, hrows⟩
  · rcases insertArtifactAnnotation_cases hrow' with ⟨-, ht⟩ | ⟨hfree, -⟩
    · rw [hs, ht]
      rfl
    · exact (hfree ((h.mem_ids hid).mp hmem)).elim
  · rcases insertArtifactAnnotation_cases hrow' with ⟨hmem, -⟩ | ⟨-, t', ht, hdb', hintents', hrows'⟩
    · exact (hfree ((h.mem_ids hid).mpr hmem)).elim
    · rw [hs, ht]
      refine ⟨?_, congrArg CaseDb.artifacts hdb, congrArg CaseDb.artifacts hdb'⟩
      constructor
      · constructor
        · rw [hdb, hdb']
          exact h.present
        · intro artifactId
          rw [publicArtifact_congr (congrArg CaseDb.artifacts hdb),
            publicArtifact_congr (congrArg CaseDb.artifacts hdb')]
          exact h.artifact artifactId
        · intro row
          rw [publicEvent_append hrow hdb hrows, publicEvent_append hrow' hdb' hrows', h.event]
        · intro actorId key hactor
          rw [hintents, hintents']
          exact h.intent actorId key hactor
        · rw [hdb, hdb']
          exact h.timeline
      · exact hidden_append hrow hdb hrows h.hiddenLeft
      · exact hidden_append hrow' hdb' hrows' h.hiddenRight

/-- Writes of anything but the annotations, that agree on the timeline and the intents. -/
theorem SameLanes.of_db (h : SameLanes caseId callers hidden s t) {t' : LabelDb}
    (hs : s'.artifactAnnotations = s.artifactAnnotations ∧ s'.db.artifacts = s.db.artifacts ∧
      s'.db.cases = s.db.cases)
    (ht : t'.artifactAnnotations = t.artifactAnnotations ∧ t'.db.artifacts = t.db.artifacts ∧
      t'.db.cases = t.db.cases)
    (hintent : ∀ actorId key, callers actorId →
      s'.artifactAnnotationBulkIntents (caseId, actorId, key) =
        t'.artifactAnnotationBulkIntents (caseId, actorId, key))
    (htimeline : s'.db.timeline caseId = t'.db.timeline caseId) :
    SameLanes caseId callers hidden s' t' := by
  obtain ⟨hrows, hartifacts, hcases⟩ := hs
  obtain ⟨hrows', hartifacts', hcases'⟩ := ht
  constructor
  · constructor
    · rw [hcases, hcases']
      exact h.present
    · intro artifactId
      rw [publicArtifact_congr hartifacts, publicArtifact_congr hartifacts']
      exact h.artifact artifactId
    · intro row
      rw [publicEvent_congr hartifacts hrows, publicEvent_congr hartifacts' hrows']
      exact h.event row
    · exact hintent
    · exact htimeline
  · intro row hrow hne
    rw [publicEvent_congr hartifacts hrows] at hne
    rw [hrows] at hrow
    exact h.hiddenLeft row hrow hne
  · intro row hrow hne
    rw [publicEvent_congr hartifacts' hrows'] at hne
    rw [hrows'] at hrow
    exact h.hiddenRight row hrow hne

theorem append_alike (h : SameLanes caseId callers hidden s t) (event : TimelineInsert)
    (now : UtcTime) :
    Alike (StoresAlike caseId callers hidden s t) (appendLabelEvent s caseId event now)
      (appendLabelEvent t caseId event now) := by
  unfold appendLabelEvent
  rw [h.timeline]
  split
  · refine ⟨h.of_db ⟨rfl, rfl, rfl⟩ ⟨rfl, rfl, rfl⟩ h.intent ?_, rfl, rfl⟩
    unfold CaseDb.appended
    dsimp only
    rw [Function.update_self, Function.update_self, h.timeline]
  · rfl

end

/-! ## Calls that may not read what is private -/

/-- A label call on the case by one of the callers, whose ids are not hidden. -/
structure PublicCall (caseId : JsString) (callers hidden : JsString → Prop) (call : BulkCall) :
    Prop where
  caseId_eq : call.caseId = caseId
  caller : callers call.actor.id
  label : call.request.labelMutation ≠ none
  canReadPrivate : call.canReadPrivate = false
  fresh : ∀ index, ¬ hidden (call.stamp.uuid index)

theorem demandLabel_ok {c : Prop} [Decidable c] {e : LabelThrown} {u : Unit} :
    demandLabel c e = .ok u ↔ c := by
  by_cases h : c <;> simp [demandLabel, h]

theorem privacy_of_parse {request : ArtifactAnnotationBulkRequestV1} {u : Unit}
    (h : parseArtifactAnnotationBulkRequest request = .ok u) (hlabel : request.labelMutation ≠ none) :
    request.privacyClass ≠ none := by
  obtain ⟨_, -, h⟩ := bind_ok.mp h
  obtain ⟨_, -, h⟩ := bind_ok.mp h
  obtain ⟨_, -, h⟩ := bind_ok.mp h
  obtain ⟨_, -, h⟩ := bind_ok.mp h
  obtain ⟨_, -, h⟩ := bind_ok.mp h
  obtain ⟨_, -, h⟩ := bind_ok.mp h
  obtain ⟨_, -, h⟩ := bind_ok.mp h
  obtain ⟨_, -, h⟩ := bind_ok.mp h
  obtain ⟨_, -, h⟩ := bind_ok.mp h
  obtain ⟨_, -, h⟩ := bind_ok.mp h
  obtain ⟨_, -, h⟩ := bind_ok.mp h
  split at h
  · rename_i hnone
    exact absurd hnone hlabel
  · obtain ⟨_, -, h⟩ := bind_ok.mp h
    obtain ⟨_, -, h⟩ := bind_ok.mp h
    exact ensure_ok.mp h

section

variable {env : LabelEnv} {caseId : JsString} {callers hidden : JsString → Prop} {s t : LabelDb}
  {call : BulkCall}

variable {checked : CheckedBulk}

theorem checkBulk_privacy (hcall : PublicCall caseId callers hidden call)
    (h : checkBulk env call = .ok checked) : checked.privacy = .share_safe := by
  obtain ⟨_, -, h⟩ := except_bind_ok.mp h
  obtain ⟨_, hparse, h⟩ := except_bind_ok.mp h
  obtain ⟨_, hallowed, h⟩ := except_bind_ok.mp h
  obtain ⟨clientTime, -, h⟩ := except_bind_ok.mp h
  cases h
  have hprivacy := privacy_of_parse (mapError_ok.mp hparse) hcall.label
  have hallowed := demandLabel_ok.mp hallowed
  change call.request.privacyClass.getD .owner_only = .share_safe
  cases hclass : call.request.privacyClass with
  | none => exact absurd hclass hprivacy
  | some privacyClass =>
    cases privacyClass with
    | owner_only => exact absurd ⟨hcall.label, hclass, hcall.canReadPrivate⟩ hallowed
    | share_safe => rfl

theorem foundArtifact_eq (hcall : PublicCall caseId callers hidden call) (artifactId : JsString) :
    foundArtifact call s artifactId = s.publicArtifact caseId artifactId := by
  unfold foundArtifact LabelDb.publicArtifact
  rw [hcall.caseId_eq]
  refine congrArg (Option.filter · _) (funext fun artifact => decide_eq_decide.mpr ?_)
  simp only [hcall.label, hcall.canReadPrivate, Bool.false_eq_true, false_or]
  cases artifact.privacyClass <;> simp

theorem replayBulk_eq (hcall : PublicCall caseId callers hidden call)
    (h : LabelsAgree caseId callers s t) (stored : ArtifactAnnotationBulkResultV1) :
    replayBulk env call s stored = replayBulk env call t stored := by
  have hitem : replayedItem call s = replayedItem call t := by
    funext item
    unfold replayedItem
    rw [foundArtifact_eq hcall, foundArtifact_eq hcall, h.artifact]
  unfold replayBulk
  rw [hitem]

/-! ## One call in two stores -/

/-- What two calls have done, from two stores. -/
structure WorksAlike (caseId : JsString) (callers hidden : JsString → Prop) (s t : LabelDb)
    (w v : BulkWork) : Prop where
  stores : StoresAlike caseId callers hidden s t w.s v.s
  items : w.items = v.items
  publicEventCount : w.publicEventCount = v.publicEventCount
  inserted : w.inserted = v.inserted

/-- What the readings of two stores have in common on public artifacts. -/
structure ReadsAlike (caseId : JsString) (s : LabelDb) (r q : BulkRead) : Prop where
  sourceId : r.sourceId = q.sourceId
  found : ∀ artifactId, r.found artifactId = s.publicArtifact caseId artifactId
  found' : ∀ artifactId, q.found artifactId = s.publicArtifact caseId artifactId
  isPublic : ∀ artifactId, (s.publicArtifact caseId artifactId).isSome →
    r.isPublic artifactId .share_safe = true ∧ q.isPublic artifactId .share_safe = true
  lastSequence : ∀ artifactId, (s.publicArtifact caseId artifactId).isSome →
    lastSequence r.history artifactId .share_safe = lastSequence q.history artifactId .share_safe
  current : ∀ artifactId label, (s.publicArtifact caseId artifactId).isSome →
    r.current.any (· = ⟨artifactId, label⟩) = q.current.any (· = ⟨artifactId, label⟩)

variable {artifactId : JsString}

theorem artifact_of_public (h : (s.publicArtifact caseId artifactId).isSome) :
    (s.artifactOf caseId artifactId).map (·.privacyClass) = some .share_safe := by
  obtain ⟨artifact, hartifact⟩ := Option.isSome_iff_exists.mp h
  obtain ⟨hfound, hprivacy⟩ := Option.filter_eq_some_iff.mp hartifact
  rw [hfound, Option.map_some, of_decide_eq_true hprivacy]

theorem readBulk_alike (hcall : PublicCall caseId callers hidden call)
    (h : LabelsAgree caseId callers s t) (hprivacy : checked.privacy = .share_safe)
    (sourceId : JsString) :
    ReadsAlike caseId s (readBulk env call s checked sourceId)
      (readBulk env call t checked sourceId) := by
  have hlabel := hcall.label
  have hcase := hcall.caseId_eq
  subst hcase
  constructor
  · rfl
  · exact foundArtifact_eq hcall
  · intro artifactId
    rw [h.artifact]
    exact foundArtifact_eq hcall artifactId
  · intro artifactId hpublic
    exact ⟨decide_eq_true ⟨hlabel, rfl, artifact_of_public hpublic⟩,
      decide_eq_true ⟨hlabel, rfl, artifact_of_public (h.artifact artifactId ▸ hpublic)⟩⟩
  · intro artifactId hpublic
    unfold readBulk
    dsimp only
    rw [if_pos hlabel, if_pos hlabel]
    exact h.lastSequence hpublic
  · intro artifactId label hpublic
    unfold readBulk
    dsimp only
    rw [if_pos hlabel, if_pos hlabel, hprivacy, Bool.eq_iff_iff, any_eq_true, any_eq_true]
    simp only [decide_eq_true_eq, exists_eq_right]
    exact h.current hpublic

theorem startBulk_alike (hcall : PublicCall caseId callers hidden call)
    (h : SameLanes caseId callers hidden s t) (sourceId : JsString) :
    WorksAlike caseId callers hidden s t
      (startBulk s (readBulk env call s checked sourceId))
      (startBulk t (readBulk env call t checked sourceId)) := by
  refine ⟨⟨h, rfl, rfl⟩, rfl, ?_, rfl⟩
  have hlabel := hcall.label
  have hcase := hcall.caseId_eq
  subst hcase
  have hevents : ∀ s : LabelDb, ((readBulk env call s checked sourceId).history.filter
      (·.labelEvent.isSome)).filter (fun row =>
        (readBulk env call s checked sourceId).isPublic row.artifactId row.privacyClass) =
      publicEvents env.order s call.caseId := by
    intro s
    unfold readBulk publicEvents
    dsimp only
    rw [if_pos hlabel, filter_filter]
    refine filter_congr fun row _ => ?_
    unfold LabelDb.isPublicEvent LabelDb.publicArtifact
    rw [Bool.eq_iff_iff]
    cases hartifact : s.artifactOf call.caseId row.artifactId with
    | none => simp
    | some artifact =>
      by_cases hprivacy : artifact.privacyClass = .share_safe
      · simp [hlabel, Option.filter, hprivacy, and_comm]
      · simp [Option.filter, hprivacy]
  unfold startBulk
  dsimp only
  rw [hevents s, hevents t, h.toLabelsAgree.publicEvents]

variable {r q : BulkRead} {w v : BulkWork}

theorem chargeEvent_alike (hprivacy : checked.privacy = .share_safe)
    (hread : ReadsAlike caseId s r q) (hpublic : (s.publicArtifact caseId artifactId).isSome)
    (mutation : EvidenceLabelMutationV1) (h : WorksAlike caseId callers hidden s t w v) :
    Alike (fun a b => a.1 = b.1 ∧ WorksAlike caseId callers hidden s t a.2 b.2)
      (chargeEvent call mutation checked r artifactId w)
      (chargeEvent call mutation checked q artifactId v) := by
  obtain ⟨hr, hq⟩ := hread.isPublic artifactId hpublic
  unfold chargeEvent
  rw [hprivacy, hr, hq, hread.lastSequence artifactId hpublic]
  simp only [if_true, h.publicEventCount]
  split
  · rfl
  · exact ⟨rfl, h.stores, h.items, rfl, h.inserted⟩

theorem annotateArtifact_alike (hcall : PublicCall caseId callers hidden call)
    (hprivacy : checked.privacy = .share_safe) (hread : ReadsAlike caseId s r q)
    {artifact : ArtifactRow} (hpublic : (s.publicArtifact caseId artifactId).isSome)
    (event : EvidenceLabelEventV1) (h : WorksAlike caseId callers hidden s t w v) :
    Alike (WorksAlike caseId callers hidden s t)
      (annotateArtifact env call checked r artifact artifactId (some event) w)
      (annotateArtifact env call checked q artifact artifactId (some event) v) := by
  have hrow : annotationOf env call checked r artifactId (some event) w.inserted =
      annotationOf env call checked q artifactId (some event) v.inserted := by
    unfold annotationOf
    rw [hread.sourceId, h.inserted]
  unfold annotateArtifact
  dsimp only
  rw [hrow]
  have hnew : PublicRow caseId w.s (annotationOf env call checked q artifactId (some event)
      v.inserted) :=
    ⟨hcall.caseId_eq, rfl, hprivacy, publicArtifact_congr h.stores.left artifactId ▸ hpublic⟩
  refine Alike.bind (insert_alike h.stores.lanes hnew (hcall.fresh _)) fun s' t' _ _ hstores => ?_
  have hleft := hstores.left.trans h.stores.left
  have hright := hstores.right.trans h.stores.right
  split
  · rw [h.inserted, hcall.caseId_eq]
    refine Alike.bind (append_alike hstores.lanes _ _) fun s'' t'' _ _ hstores' => ?_
    refine ⟨⟨hstores'.lanes, hstores'.left.trans hleft, hstores'.right.trans hright⟩, ?_,
      h.publicEventCount, ?_⟩
    · change w.items ++ _ = v.items ++ _
      rw [h.items]
    · rfl
  · refine ⟨⟨hstores.lanes, hleft, hright⟩, ?_, h.publicEventCount, ?_⟩
    · change w.items ++ _ = v.items ++ _
      rw [h.items]
    · change w.inserted + 1 = v.inserted + 1
      rw [h.inserted]

theorem WorksAlike.push (h : WorksAlike caseId callers hidden s t w v)
    (item : ArtifactAnnotationBulkItemV1) :
    WorksAlike caseId callers hidden s t { w with items := w.items ++ [item] }
      { v with items := v.items ++ [item] } :=
  ⟨h.stores, congrArg (· ++ [item]) h.items, h.publicEventCount, h.inserted⟩

theorem bulkItem_alike (hcall : PublicCall caseId callers hidden call)
    (hprivacy : checked.privacy = .share_safe) (hread : ReadsAlike caseId s r q)
    (artifactId : JsString) (h : WorksAlike caseId callers hidden s t w v) :
    Alike (WorksAlike caseId callers hidden s t) (bulkItem env call checked r w artifactId)
      (bulkItem env call checked q v artifactId) := by
  unfold bulkItem
  rw [hread.found, hread.found']
  cases hfound : s.publicArtifact caseId artifactId with
  | none => exact h.push _
  | some artifact =>
    have hpublic : (s.publicArtifact caseId artifactId).isSome := by
      rw [hfound]
      rfl
    cases hmutation : call.request.labelMutation with
    | none => exact absurd hmutation hcall.label
    | some mutation =>
      dsimp only
      rw [hread.current artifactId mutation.label hpublic]
      split
      · exact h.push _
      · refine Alike.bind (chargeEvent_alike hprivacy hread hpublic mutation h)
          fun a b _ _ hab => ?_
        obtain ⟨event, w'⟩ := a
        obtain ⟨event', v'⟩ := b
        obtain ⟨heq, hworks⟩ := hab
        dsimp only at heq
        subst heq
        exact annotateArtifact_alike hcall hprivacy hread hpublic event hworks

theorem finishBulk_alike (digest : JsString) (h : WorksAlike caseId callers hidden s t w v) :
    Alike (fun a b => a.1 = b.1 ∧ SameLanes caseId callers hidden a.2 b.2)
      (finishBulk call checked digest w) (finishBulk call checked digest v) := by
  unfold finishBulk
  dsimp only
  rw [h.items]
  refine Alike.bind_same fun items _ => ?_
  refine ⟨rfl, h.stores.lanes.of_db ⟨rfl, rfl, rfl⟩ ⟨rfl, rfl, rfl⟩ ?_ h.stores.lanes.timeline⟩
  intro actorId key hactor
  dsimp only
  by_cases hkey : (caseId, actorId, key) =
      (call.caseId, call.actor.id, call.request.idempotencyKey)
  · rw [hkey, Function.update_self, Function.update_self]
  · rw [Function.update_of_ne hkey, Function.update_of_ne hkey]
    exact h.stores.lanes.intent actorId key hactor

theorem addArtifactAnnotationsBulk_alike (hcall : PublicCall caseId callers hidden call)
    (h : SameLanes caseId callers hidden s t) :
    Alike (fun a b => a.1 = b.1 ∧ SameLanes caseId callers hidden a.2 b.2)
      (addArtifactAnnotationsBulk env call s) (addArtifactAnnotationsBulk env call t) := by
  have hcase := hcall.caseId_eq
  unfold addArtifactAnnotationsBulk
  refine Alike.bind_same fun checked hchecked => ?_
  have hprivacy := checkBulk_privacy hcall hchecked
  rw [hcase, h.present]
  refine Alike.bind_same fun _ _ => ?_
  refine Alike.bind_same fun sourceId _ => ?_
  rw [h.intent _ _ hcall.caller]
  cases t.artifactAnnotationBulkIntents (caseId, call.actor.id, call.request.idempotencyKey) with
  | some existing =>
    refine Alike.bind_same fun _ _ => ?_
    rw [replayBulk_eq hcall h.toLabelsAgree]
    refine Alike.bind_same fun result _ => ?_
    exact ⟨rfl, h⟩
  | none =>
    have hread : ReadsAlike caseId s (readBulk env call s checked sourceId)
        (readBulk env call t checked sourceId) :=
      readBulk_alike hcall h.toLabelsAgree hprivacy sourceId
    refine Alike.bind (Alike.foldlM (fun artifactId _ w v hw =>
      bulkItem_alike hcall hprivacy hread artifactId hw) (startBulk_alike hcall h sourceId))
      fun w v _ _ hw => ?_
    exact finishBulk_alike _ hw

/-! ## Runs -/

/-- What a call shows: its result, and the events that it appends to the timeline. -/
structure LabelShown where
  result : Except LabelThrown ArtifactAnnotationBulkResultV1
  appended : List TimelineRow

def labelStep (env : LabelEnv) (s : LabelDb) (call : BulkCall) : LabelShown × LabelDb :=
  match addArtifactAnnotationsBulk env call s with
  | .ok (result, s') =>
    (⟨.ok result, (s'.db.timeline call.caseId).drop (s.db.timeline call.caseId).length⟩, s')
  | .error e => (⟨.error e, []⟩, s)

theorem labelStep_alike (hcall : PublicCall caseId callers hidden call)
    (h : SameLanes caseId callers hidden s t) :
    (labelStep env s call).1 = (labelStep env t call).1 ∧
      SameLanes caseId callers hidden (labelStep env s call).2 (labelStep env t call).2 := by
  have halike : Alike (fun a b => a.1 = b.1 ∧ SameLanes caseId callers hidden a.2 b.2)
      (addArtifactAnnotationsBulk env call s) (addArtifactAnnotationsBulk env call t) :=
    addArtifactAnnotationsBulk_alike hcall h
  unfold labelStep
  revert halike
  cases addArtifactAnnotationsBulk env call s with
  | error e =>
    cases addArtifactAnnotationsBulk env call t with
    | error e' =>
      rintro rfl
      exact ⟨rfl, h⟩
    | ok b => exact False.elim
  | ok a =>
    cases addArtifactAnnotationsBulk env call t with
    | error e' => exact False.elim
    | ok b =>
      obtain ⟨result, s'⟩ := a
      obtain ⟨result', t'⟩ := b
      rintro ⟨heq, hlanes⟩
      dsimp only at heq hlanes
      subst heq
      refine ⟨?_, hlanes⟩
      dsimp only
      rw [hcall.caseId_eq, hlanes.timeline, h.timeline]

/-- The id of a row that is stored in one of the stores. -/
def StoredId (s t : LabelDb) (id : JsString) : Prop :=
  (∃ row ∈ s.artifactAnnotations.rows, row.id = id) ∨
    ∃ row ∈ t.artifactAnnotations.rows, row.id = id

/-- Label calls that may not read what is private show the same in stores that agree on what is
public, and the stores agree after them. -/
theorem labels_noninterference (h : LabelsAgree caseId callers s t) {calls : List BulkCall}
    (hcalls : ∀ call ∈ calls, PublicCall caseId callers (StoredId s t) call) :
    (outputs (labelStep env) s calls).1 = (outputs (labelStep env) t calls).1 ∧
      LabelsAgree caseId callers (outputs (labelStep env) s calls).2
        (outputs (labelStep env) t calls).2 := by
  have hstart : SameLanes caseId callers (StoredId s t) s t :=
    ⟨h, fun row hrow _ => .inl ⟨row, hrow, rfl⟩, fun row hrow _ => .inr ⟨row, hrow, rfl⟩⟩
  have hstep : ∀ call ∈ calls, ∀ s' t', SameLanes caseId callers (StoredId s t) s' t' →
      (labelStep env s' call).1 = (labelStep env t' call).1 ∧
        SameLanes caseId callers (StoredId s t) (labelStep env s' call).2
          (labelStep env t' call).2 :=
    fun call hcall _ _ hlanes => labelStep_alike (hcalls call hcall) hlanes
  obtain ⟨hshown, hend⟩ := outputs_eq hstep hstart
  exact ⟨hshown, hend.toLabelsAgree⟩

end

/-! ## A case with a private artifact -/

def idOrder : AnnotationOrder where
  before a b := a.id.map UInt16.toNat ≤ b.id.map UInt16.toNat
  compares :=
    { trans := fun a b c hab hbc => decide_eq_true
        (le_trans (of_decide_eq_true hab) (of_decide_eq_true hbc))
      total := fun a b => by
        rw [Bool.or_eq_true, decide_eq_true_eq, decide_eq_true_eq]
        exact le_total _ _ }
  eq_of_before a b hab hba :=
    map_injective_iff.mpr (fun _ _ => UInt16.toNat_inj.mp)
      (le_antisymm (of_decide_eq_true hab) (of_decide_eq_true hba))

def labelEnv : LabelEnv where
  toContributionEnv := sourceEnv
  artifactAnnotationBulkWriteDigest _ body _ _ := body
  labelWriteDigest _ mutation _ _ := mutation.label
  annotationContentHash _ body := body
  order := idOrder

def caseUuid : JsString := JsString.ofString "11111111-1111-4111-8111-111111111111"
def publicUuid : JsString := JsString.ofString "22222222-2222-4222-8222-222222222222"
def privateUuid : JsString := JsString.ofString "33333333-3333-4333-8333-333333333333"

def publicCase : LabelDb where
  db :=
    { cases := fun id => if id = caseUuid then oneCase.cases [1] else none
      artifacts := fun id => if id = publicUuid then
        some ⟨publicUuid, caseUuid, none, none, none, .share_safe⟩ else none }

/-- A public label event on the private artifact. -/
def privateEvent : ArtifactAnnotationRow where
  labelEvent := some ⟨⟨[0x78], .add⟩, 1, JsString.ofString "intent-1"⟩
  id := [1]
  caseId := caseUuid
  artifactId := privateUuid
  body := []
  contentHash := []
  privacyClass := .share_safe
  authorId := [8]
  authorUsername := [8]
  createdAt := noon.toISOString
  sourceId := []

/-- The case with a private artifact and a label on it. -/
def protectedCase : LabelDb where
  db :=
    { publicCase.db with
      artifacts := fun id => if id = publicUuid then
        some ⟨publicUuid, caseUuid, none, none, none, .share_safe⟩
        else if id = privateUuid then
          some ⟨privateUuid, caseUuid, none, none, none, .owner_only⟩ else none }
  artifactAnnotations := ⟨[privateEvent], nodup_singleton _⟩

def labelBoth : BulkCall where
  stamp := ⟨noon, fun _ => [9], fun _ => noon⟩
  caseId := caseUuid
  actor := ⟨[7], [7]⟩
  request :=
    { artifactIds := [publicUuid, privateUuid], body := JsString.ofString "add: x"
      privacyClass := some .share_safe, clientTime := none, sourceId := none
      idempotencyKey := JsString.ofString "intent-2", labelMutation := some ⟨[0x78], .add⟩ }
  origin := []
  canReadPrivate := false

theorem labelsAgree_protectedCase :
    LabelsAgree caseUuid (fun _ => True) publicCase protectedCase where
  present := rfl
  artifact artifactId := by
    unfold LabelDb.publicArtifact LabelDb.artifactOf publicCase protectedCase
    dsimp only
    by_cases hpublic : artifactId = publicUuid
    · rw [if_pos hpublic, if_pos hpublic]
    · rw [if_neg hpublic, if_neg hpublic]
      split <;> rfl
  event row := by
    refine ⟨fun h => absurd h.1 not_mem_nil, fun h => ?_⟩
    obtain ⟨hrow, -, hpublic⟩ := h
    rw [mem_singleton.mp hrow] at hpublic
    exact absurd hpublic (by decide)
  intent _ _ _ := rfl
  timeline := rfl

/-- The label on the private artifact does not show. -/
theorem labels_noninterference_private :
    (outputs (labelStep labelEnv) publicCase [labelBoth]).1 =
        (outputs (labelStep labelEnv) protectedCase [labelBoth]).1 ∧
      LabelsAgree caseUuid (fun _ => True) (outputs (labelStep labelEnv) publicCase [labelBoth]).2
        (outputs (labelStep labelEnv) protectedCase [labelBoth]).2 := by
  refine labels_noninterference labelsAgree_protectedCase fun call hcall => ?_
  rw [mem_singleton.mp hcall]
  refine ⟨rfl, trivial, by decide, rfl, fun _ h => ?_⟩
  rcases h with ⟨row, hrow, -⟩ | ⟨row, hrow, hid⟩
  · exact absurd hrow not_mem_nil
  · rw [mem_singleton.mp hrow] at hid
    exact absurd hid (by decide : ¬ ([1] : JsString) = [9])

end ContextDesk
