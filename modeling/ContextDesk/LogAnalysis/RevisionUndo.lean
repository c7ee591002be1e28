import ContextDesk.Lib.Publish
import ContextDesk.LogAnalysis.RevisionStats

/-!
# Publishing a revision and undoing it

A corpus is a store with one step of undo: `Represents db s` ties the database to an
`UndoStore` of snapshots, where a snapshot is the event table, its metadata and its statistics.
The earlier snapshot is not stored as such; `Retains db p` says how the two side tables and the
`previous_*` columns encode it. Appending refines `replace`, a published revision `publish`, an
undo `undo`, and a refused call changes nothing.
-/

namespace ContextDesk.LogAnalysis

open Lib List

structure Snapshot where
  events : List EventRow
  metadata : Json
  stats : RevisionStats

def CorpusDb.snapshot (db : CorpusDb) : Snapshot where
  events := db.events
  metadata := db.state.currentMetadataJson
  stats := db.state.stats

/-- No two events share sequence and source, and the statistics are those of the table. -/
structure Snapshot.Sound (s : Snapshot) : Prop where
  rows : Distinct EventRow.key s.events
  stats : s.stats = recount s.events

/-- The database still knows the snapshot `p` that the active revision superseded. -/
structure Retains (db : CorpusDb) (p : Snapshot) : Prop where
  revision : ∃ r, db.state.previousRevision = some r ∧ db.state.currentRevision = r + 1
  metadata : db.state.previousMetadataJson = some p.metadata
  stats : db.state.previousStats = some p.stats
  changes : ∃ staged, Staged p.events staged ∧ db.events = publishStaged staged p.events ∧
    db.eventsPrevious = some (retainedRows staged p.events) ∧
    db.timestampChanges = some (staged.map fun u => u.toChange db.state.currentRevision)

/-- The database shows the store `s`. -/
structure Represents (db : CorpusDb) (s : UndoStore Snapshot) : Prop where
  revision : db.state.currentRevision = s.revision
  current : db.snapshot = s.current
  previous : match s.previous with
    | none => db.state.previousRevision = none
    | some p => Retains db p

/-! ## The retained tables -/

section

variable {events : List EventRow} {staged : List EventTimestampUpdate}

variable {r : EventRow} {u : EventTimestampUpdate} {revision : Nat}

theorem EventRow.sameChange_iff : r.sameChange (u.toChange revision) = true ↔ r.key = u.key := by
  rw [← sameEvent_iff]
  rfl

theorem EventRow.isPrevious_iff :
    r.isPrevious (u.toChange revision) = true ↔ r.isExpected u = true := by
  rw [isExpected_iff]
  simp only [isPrevious, sameChange_iff, Bool.decide_and, Bool.and_eq_true, decide_eq_true_eq]
  rfl

theorem EventRow.isCurrent_iff :
    r.isCurrent (u.toChange revision) = true ↔ r.key = u.key ∧ r.ts = u.revisedTs ∧
      r.activeTimestampBasis = some u.revisedActiveTimestampBasis := by
  simp only [isCurrent, sameChange_iff, Bool.decide_and, Bool.and_eq_true, decide_eq_true_eq]
  rfl

theorem EventRow.samePayload_revise (r : EventRow) (u : EventTimestampUpdate) :
    (r.revise u).samePayload r = true := by
  simp [samePayload, revise]

theorem EventTimestampUpdate.isValid_toChange (u : EventTimestampUpdate) (revision : Nat) :
    (u.toChange revision).isValid revision = true := by
  simp [TimestampChange.isValid, toChange]

theorem filter_isValid_toChange (staged : List EventTimestampUpdate) (revision : Nat) :
    (staged.map fun u => u.toChange revision).filter (TimestampChange.isValid revision) =
      staged.map fun u => u.toChange revision := by
  refine filter_eq_self.mpr fun c hc => ?_
  obtain ⟨u, -, rfl⟩ := mem_map.mp hc
  exact u.isValid_toChange revision

theorem Staged.retainedRows_eq (h : Staged events staged) :
    retainedRows staged events =
      events.filter (named EventRow.key EventTimestampUpdate.key staged) := by
  refine map_fst_join fun r hr => ?_
  by_cases hn : named EventRow.key EventTimestampUpdate.key staged r = true
  · obtain ⟨u, hu, hk⟩ := named_iff.mp hn
    rw [if_pos hn, h.keys.filter_eq_singleton hu (h.isExpected hr hu hk) fun v _ hv =>
      (EventRow.isExpected_iff.mp hv).1.symm.trans hk]
    rfl
  · rw [if_neg hn, length_eq_zero_iff, filter_eq_nil_iff]
    intro u hu he
    exact hn (named_iff.mpr ⟨u, hu, (EventRow.isExpected_iff.mp he).1⟩)

theorem Staged.mem_retainedRows (h : Staged events staged) :
    r ∈ retainedRows staged events ↔ r ∈ events ∧ ∃ u ∈ staged, r.key = u.key := by
  rw [h.retainedRows_eq, mem_filter, named_iff]

theorem Staged.length_retainedRows (h : Staged events staged) :
    (retainedRows staged events).length = staged.length := by
  rw [h.retainedRows_eq, ← countP_eq_length_filter]
  exact length_named h.rows h.keys h.covers

theorem Staged.distinct_publish (h : Staged events staged) :
    Distinct EventRow.key (publishStaged staged events) :=
  h.rows.map_rows fun _ => reviseBy_key _

theorem Staged.mem_publish (h : Staged events staged) {r' : EventRow}
    (hr' : r' ∈ publishStaged staged events) :
    ∃ r ∈ events, (∃ u ∈ staged, r.key = u.key ∧ r.isExact u = true ∧ r' = r.revise u) ∨
      (∀ u ∈ staged, r.key ≠ u.key) ∧ r' = r := by
  obtain ⟨r, hr, rfl⟩ := mem_map.mp hr'
  refine ⟨r, hr, ?_⟩
  show (∃ u ∈ staged, _ ∧ _ ∧ reviseBy staged r = _) ∨ _ ∧ reviseBy staged r = r
  by_cases hn : named EventRow.key EventTimestampUpdate.key staged r = true
  · obtain ⟨u, hu, hk⟩ := named_iff.mp hn
    exact .inl ⟨u, hu, hk, h.isExact hr hu hk, h.reviseBy_named hr hu hk⟩
  · have hk := not_named (Bool.not_eq_true _ ▸ hn)
    exact .inr ⟨hk, reviseBy_unnamed hk⟩

theorem Staged.rows_of_update (h : Staged events staged) (hu : u ∈ staged) :
    ∃ r ∈ events, r.key = u.key ∧ r.isExpected u = true ∧
      r.revise u ∈ publishStaged staged events ∧ r ∈ retainedRows staged events := by
  obtain ⟨r, hr, hk⟩ := h.covers u hu
  refine ⟨r, hr, hk, h.isExpected hr hu hk, ?_, h.mem_retainedRows.mpr ⟨hr, u, hu, hk⟩⟩
  exact mem_map.mpr ⟨r, hr, h.reviseBy_named hr hu hk⟩

/-- An integrity join that pairs each change with one active and one retained row is as long as
the changes. -/
theorem length_integrityJoin {changes : List TimestampChange} {active previous : List EventRow}
    {onActive onPrevious : EventRow → TimestampChange → Bool}
    {both : EventRow → EventRow → Bool}
    (h : ∀ c ∈ changes, ∃ a p, active.filter (fun a => onActive a c) = [a] ∧
      previous.filter (fun p => onPrevious p c && both a p) = [p]) :
    (integrityJoin changes active previous onActive onPrevious both).length = changes.length := by
  induction changes with
  | nil => rfl
  | cons c changes ih =>
    obtain ⟨a, p, ha, hp⟩ := h c mem_cons_self
    have ih := ih fun c' hc' => h c' (mem_cons_of_mem _ hc')
    simp only [integrityJoin, flatMap_cons, length_append, length_cons] at ih ⊢
    rw [ih, ha]
    simp [hp]
    omega

theorem Staged.length_mapping (h : Staged events staged) (revision : Nat) :
    (integrityJoin (staged.map fun u => u.toChange revision) (publishStaged staged events)
      (retainedRows staged events) EventRow.isCurrent EventRow.isPrevious
      fun _ _ => true).length = staged.length := by
  rw [length_integrityJoin, length_map]
  intro c hc
  obtain ⟨u, hu, rfl⟩ := mem_map.mp hc
  obtain ⟨r, -, hk, he, hact, hret⟩ := h.rows_of_update hu
  refine ⟨r.revise u, r, ?_, ?_⟩
  · refine h.distinct_publish.filter_eq_singleton hact ?_ fun s _ hs => ?_
    · exact EventRow.isCurrent_iff.mpr ⟨hk, rfl, rfl⟩
    · exact (EventRow.isCurrent_iff.mp hs).1.trans hk.symm
  · rw [h.retainedRows_eq] at hret ⊢
    simp only [Bool.and_true]
    refine (h.rows.sublist filter_sublist).filter_eq_singleton hret ?_ fun s _ hs => ?_
    · exact EventRow.isPrevious_iff.mpr he
    · exact (EventRow.isExpected_iff.mp (EventRow.isPrevious_iff.mp hs)).1.trans hk.symm

theorem Staged.length_payload (h : Staged events staged) (revision : Nat) :
    (integrityJoin (staged.map fun u => u.toChange revision) (publishStaged staged events)
      (retainedRows staged events) EventRow.sameChange EventRow.sameChange
      EventRow.samePayload).length = staged.length := by
  rw [length_integrityJoin, length_map]
  intro c hc
  obtain ⟨u, hu, rfl⟩ := mem_map.mp hc
  obtain ⟨r, -, hk, -, hact, hret⟩ := h.rows_of_update hu
  refine ⟨r.revise u, r, ?_, ?_⟩
  · refine h.distinct_publish.filter_eq_singleton hact ?_ fun s _ hs => ?_
    · exact EventRow.sameChange_iff.mpr hk
    · exact (EventRow.sameChange_iff.mp hs).trans hk.symm
  · rw [h.retainedRows_eq] at hret ⊢
    refine (h.rows.sublist filter_sublist).filter_eq_singleton hret ?_ fun s _ hs => ?_
    · simpa [EventRow.samePayload_revise] using EventRow.sameChange_iff.mpr hk
    · simp only [Bool.and_eq_true] at hs
      exact (EventRow.sameChange_iff.mp hs.1).trans hk.symm

theorem Staged.filter_changed (h : Staged events staged) (revision : Nat) :
    ((staged.map fun u => u.toChange revision).filter fun c => c.previousTs ≠ c.currentTs) =
      staged.map fun u => u.toChange revision := by
  refine filter_eq_self.mpr fun c hc => ?_
  obtain ⟨u, hu, rfl⟩ := mem_map.mp hc
  have hv := h.valid u hu
  simp only [validateUpdate, bind_ok, ensure_ok] at hv
  obtain ⟨_, -, _, -, _, hts, -⟩ := hv
  exact decide_eq_true hts

/-! ## Restoring -/

theorem Staged.mem_restoreRows (h : Staged events staged) {p : EventRow} {c : TimestampChange} :
    (p, c) ∈ restoreRows revision (retainedRows staged events)
        (staged.map fun u => u.toChange revision) ↔
      ∃ u ∈ staged, c = u.toChange revision ∧ p ∈ events ∧ p.key = u.key := by
  rw [restoreRows, mem_join, filter_isValid_toChange, h.mem_retainedRows, mem_map]
  constructor
  · rintro ⟨⟨hp, -⟩, ⟨u, hu, rfl⟩, he⟩
    exact ⟨u, hu, rfl, hp, (EventRow.isExpected_iff.mp (EventRow.isPrevious_iff.mp he)).1⟩
  · rintro ⟨u, hu, rfl, hp, hk⟩
    exact ⟨⟨hp, u, hu, hk⟩, ⟨u, hu, rfl⟩, EventRow.isPrevious_iff.mpr (h.isExpected hp hu hk)⟩

/-- A published row is matched by a retained pair exactly when an update names it. -/
theorem Staged.any_isCurrent (h : Staged events staged) (revision : Nat) (hr : r ∈ events) :
    (restoreRows revision (retainedRows staged events)
        (staged.map fun u => u.toChange revision)).any (fun pc => (reviseBy staged r).isCurrent pc.2)
      = named EventRow.key EventTimestampUpdate.key staged r := by
  rw [Bool.eq_iff_iff, any_eq_true, named_iff]
  constructor
  · rintro ⟨⟨p, c⟩, hpc, hcur⟩
    obtain ⟨u, hu, rfl, -, -⟩ := h.mem_restoreRows.mp hpc
    exact ⟨u, hu, (reviseBy_key r).symm.trans (EventRow.isCurrent_iff.mp hcur).1⟩
  · rintro ⟨u, hu, hk⟩
    refine ⟨(r, u.toChange revision), h.mem_restoreRows.mpr ⟨u, hu, rfl, hr, hk⟩, ?_⟩
    rw [h.reviseBy_named hr hu hk]
    exact EventRow.isCurrent_iff.mpr ⟨hk, rfl, rfl⟩

theorem Staged.restoredCount (h : Staged events staged) (revision : Nat) :
    Lib.updatedCount (fun r (pc : EventRow × TimestampChange) => r.isCurrent pc.2)
        (restoreRows revision (retainedRows staged events)
          (staged.map fun u => u.toChange revision)) (publishStaged staged events) =
      staged.length := by
  rw [← length_named h.rows h.keys h.covers, Lib.updatedCount, publishStaged_eq, countP_map]
  refine countP_congr fun r hr => ?_
  rw [Function.comp, h.any_isCurrent revision hr]

theorem EventRow.restore_revise {c : TimestampChange} : (r.revise u).restore (r, c) = r := rfl

/-- Restoring brings back the table that was published over. -/
theorem Staged.restore_publish (h : Staged events staged) (revision : Nat) :
    updateFrom (fun r (pc : EventRow × TimestampChange) => r.isCurrent pc.2) EventRow.restore
        (restoreRows revision (retainedRows staged events)
          (staged.map fun u => u.toChange revision)) (publishStaged staged events) = events := by
  rw [updateFrom, publishStaged_eq, map_map]
  refine (map_congr_left fun r hr => ?_).trans (map_id _)
  have hany := h.any_isCurrent revision hr
  show updateRow _ _ _ (reviseBy staged r) = id r
  by_cases hn : named EventRow.key EventTimestampUpdate.key staged r = true
  · rw [hn, any_eq_true] at hany
    obtain ⟨u, hu, hk⟩ := named_iff.mp hn
    -- the pair found for the row carries the row itself
    cases hf : (restoreRows revision (retainedRows staged events)
        (staged.map fun u => u.toChange revision)).find?
          (fun pc => (reviseBy staged r).isCurrent pc.2) with
    | none =>
      obtain ⟨pc, hpc, hcur⟩ := hany
      exact absurd hcur (find?_eq_none.mp hf pc hpc)
    | some pc =>
      obtain ⟨p, c⟩ := pc
      obtain ⟨v, -, rfl, hp, hpk⟩ := h.mem_restoreRows.mp (mem_of_find?_eq_some hf)
      have hcur := find?_some hf
      have hrk : r.key = v.key := (reviseBy_key r).symm.trans (EventRow.isCurrent_iff.mp hcur).1
      obtain rfl : p = r := h.rows.eq_of_key hp hr (hpk.trans hrk.symm)
      rw [updateRow_of_find hf, h.reviseBy_named hr hu hk, EventRow.restore_revise, id]
  · rw [Bool.not_eq_true] at hn
    rw [hn, any_eq_false] at hany
    rw [updateRow_of_none fun pc hpc => Bool.eq_false_iff.mpr (hany pc hpc),
      reviseBy_unnamed (not_named hn), id]

end

/-! ## The operations -/

theorem guarded_cases {α : Type} (before : CoreResult α)
    (body : α → CorpusDb → CoreResult (EventRevisionReport × CorpusDb)) (db : CorpusDb) :
    (∃ a report db', before = .ok a ∧ body a db = .ok (report, db') ∧
        guarded before body db = (.ok report, db')) ∨
      ∃ e, guarded before body db = (.error e, db) := by
  unfold guarded
  cases before with
  | error e => exact .inr ⟨e, rfl⟩
  | ok a =>
    obtain ⟨report, db', hb, hat⟩ | ⟨e, -, hat⟩ := atomically_cases (body a) db
    · exact .inl ⟨a, report, db', rfl, hb, hat⟩
    · exact .inr ⟨e, hat⟩

theorem guarded_ok {α : Type} {before : CoreResult α} {a : α}
    {body : α → CorpusDb → CoreResult (EventRevisionReport × CorpusDb)} {db db' : CorpusDb}
    {report : EventRevisionReport} (hb : before = .ok a) (h : body a db = .ok (report, db')) :
    guarded before body db = (.ok report, db') := by
  subst hb
  exact atomically_ok h

theorem validateMetadata_ok {metadata : EventRevisionMetadata} {json : Json}
    (h : validateMetadata metadata = .ok json) : json = metadata.toJson := by
  simp only [validateMetadata, bind_ok, ensure_ok, pure_ok] at h
  obtain ⟨_, -, _, -, _, -, rfl⟩ := h
  rfl

/-- Everything a call of `applyEventTimestampRevision` can do: refuse and change nothing, or
publish the updates it was given. -/
theorem applyEventTimestampRevision_cases (env : RevisionEnv) (expectedRevision : Nat)
    (metadata : EventRevisionMetadata) (updates : List EventTimestampUpdate) (db : CorpusDb) :
    (∃ e, applyEventTimestampRevision env expectedRevision metadata updates db = (.error e, db)) ∨
      ∃ report revised, db.state.currentRevision = expectedRevision ∧
        expectedRevision + 1 ≤ i64Max ∧ validateMetadata metadata = .ok metadata.toJson ∧
        stageUpdates env.cancelled updates = .ok updates ∧
        validateStagedUpdates db.events updates = .ok () ∧
        storedRevisionStats db.state.stats = .ok db.state.stats ∧
        revisedStats db.events updates db.state.stats = .ok revised ∧
        applyEventTimestampRevision env expectedRevision metadata updates db =
          (.ok report,
           { events := publishStaged updates db.events
             eventsPrevious := some (retainedRows updates db.events)
             timestampChanges := some (updates.map fun u => u.toChange (expectedRevision + 1))
             state :=
               { currentRevision := expectedRevision + 1
                 currentMetadataJson := metadata.toJson
                 stats := revised
                 previousRevision := some expectedRevision
                 previousMetadataJson := some db.state.currentMetadataJson
                 previousStats := some db.state.stats } }) := by
  unfold applyEventTimestampRevision
  obtain ⟨json, report, db', hbefore, hbody, hat⟩ | ⟨e, hat⟩ := guarded_cases
    (do
      let metadataJson ← validateMetadata metadata
      env.acquire
      ensure (¬ env.cancelled .beforeStaging) "event re-analysis cancelled before staging"
      pure metadataJson)
    (fun metadataJson => applyTransaction env expectedRevision metadataJson updates) db
  · right
    rw [hat]
    simp only [bind_ok, ensure_ok, pure_ok] at hbefore
    obtain ⟨_, hmeta, _, -, _, -, rfl⟩ := hbefore
    obtain rfl := validateMetadata_ok hmeta
    simp only [applyTransaction, nextRevision, bind_ok, ensure_ok, pure_ok, require_ok,
      advancedRevision_eq_some, Prod.mk.injEq] at hbody
    obtain ⟨_, rfl, _, ⟨rfl, hmax⟩, staged, hstage, _, hval, stats, hstats, _, -, revised, hrev,
      _, -, _, -, _, -, _, -, _, -, _, -, -, rfl⟩ := hbody
    obtain rfl := (stageUpdates_ok hstage).1
    have hsame : stats = db.state.stats := by
      simp only [storedRevisionStats, bind_ok, ensure_ok, pure_ok] at hstats
      obtain ⟨_, -, _, -, _, -, e⟩ := hstats
      exact e.symm
    subst hsame
    exact ⟨report, revised, rfl, hmax, hmeta, hstage, hval, hstats, hrev, rfl⟩
  · exact .inl ⟨e, hat⟩

/-- Everything a call of `undoEventRevision` can do: refuse and change nothing, or write the
retained timestamps back and forget what was retained. -/
theorem undoEventRevision_cases (env : RevisionEnv) (expectedRevision : Nat) (db : CorpusDb) :
    (∃ e, undoEventRevision env expectedRevision db = (.error e, db)) ∨
      ∃ report previous retained metadataJson,
        db.state.currentRevision = expectedRevision ∧ expectedRevision + 1 ≤ i64Max ∧
        db.state.previousRevision = some previous ∧ db.state.previousStats = some retained ∧
        db.state.previousMetadataJson = some metadataJson ∧
        undoEventRevision env expectedRevision db =
          (.ok report,
           { events := updateFrom (fun r pc => r.isCurrent pc.2) EventRow.restore
               (restoreRows expectedRevision (db.eventsPrevious.getD [])
                 (db.timestampChanges.getD [])) db.events
             eventsPrevious := none
             timestampChanges := none
             state :=
               { currentRevision := expectedRevision + 1
                 currentMetadataJson := metadataJson
                 stats := retained
                 previousRevision := none
                 previousMetadataJson := none
                 previousStats := none } }) := by
  unfold undoEventRevision
  obtain ⟨_, report, db', -, hbody, hat⟩ | ⟨e, hat⟩ := guarded_cases
    (do
      env.acquire
      ensure (¬ env.cancelled .beforeStaging) "event revision undo cancelled before publication")
    (fun _ => undoTransaction env expectedRevision) db
  · right
    rw [hat]
    simp only [undoTransaction, nextRevision, bind_ok, ensure_ok, pure_ok, require_ok,
      advancedRevision_eq_some, Prod.mk.injEq] at hbody
    obtain ⟨_, rfl, previous, hprev, _, -, _, ⟨rfl, hmax⟩, retained, hret, _, -, _, -, _, -, _, -,
      _, -, _, -, _, -, json, hjson, _, -, _, -, _, -, -, rfl⟩ := hbody
    exact ⟨report, previous, retained, json, rfl, hmax, hprev, hret, hjson, rfl⟩
  · exact .inl ⟨e, hat⟩

theorem applyEventTimestampRevision_error {env : RevisionEnv} {expectedRevision : Nat}
    {metadata : EventRevisionMetadata} {updates : List EventTimestampUpdate} {db : CorpusDb}
    {e : String}
    (h : (applyEventTimestampRevision env expectedRevision metadata updates db).1 = .error e) :
    (applyEventTimestampRevision env expectedRevision metadata updates db).2 = db := by
  obtain ⟨e', he⟩ | ⟨_, _, -, -, -, -, -, -, -, he⟩ :=
    applyEventTimestampRevision_cases env expectedRevision metadata updates db
  · rw [he]
  · rw [he] at h
    cases h

theorem undoEventRevision_error {env : RevisionEnv} {expectedRevision : Nat} {db : CorpusDb}
    {e : String} (h : (undoEventRevision env expectedRevision db).1 = .error e) :
    (undoEventRevision env expectedRevision db).2 = db := by
  obtain ⟨e', he⟩ | ⟨_, _, _, _, -, -, -, -, -, he⟩ := undoEventRevision_cases env expectedRevision db
  · rw [he]
  · rw [he] at h
    cases h

/-! ## The refinement -/

section

variable {db : CorpusDb} {s : UndoStore Snapshot}

/-- Publication refines `publish`: the new table is sound and the old snapshot stays known. -/
theorem Represents.apply (h : Represents db s) (hs : s.Holds Snapshot.Sound)
    (env : RevisionEnv) (expectedRevision : Nat) (metadata : EventRevisionMetadata)
    (updates : List EventTimestampUpdate) {report : EventRevisionReport} {db' : CorpusDb}
    (hok : applyEventTimestampRevision env expectedRevision metadata updates db =
      (.ok report, db')) :
    ∃ x, x.Sound ∧ x.events = publishStaged updates db.events ∧ Staged db.events updates ∧
      x.metadata = metadata.toJson ∧ validateMetadata metadata = .ok metadata.toJson ∧
      Represents db' (s.publish x) := by
  have hsound : db.snapshot.Sound := h.current ▸ hs.1
  obtain ⟨e, he⟩ | ⟨report', revised, hrev, -, hmeta, hstage, hval, -, hstats, he⟩ :=
    applyEventTimestampRevision_cases env expectedRevision metadata updates db
  · rw [he] at hok
    cases hok
  · rw [he] at hok
    obtain ⟨-, rfl⟩ := Prod.mk.inj hok
    have hst : Staged db.events updates := Staged.of_checks hsound.rows hstage hval
    have hrecount : db.state.stats = recount db.events := hsound.stats
    rw [hrecount, hst.revisedStats_eq] at hstats
    obtain rfl := Except.ok.inj hstats
    subst hrev
    refine ⟨⟨publishStaged updates db.events, metadata.toJson,
      recount (publishStaged updates db.events)⟩, ⟨hst.distinct_publish, rfl⟩, rfl, hst, rfl,
      hmeta, ?_⟩
    refine ⟨?_, rfl, ?_⟩
    · exact congrArg (· + 1) h.revision
    · show Retains _ s.current
      rw [← h.current]
      exact ⟨⟨_, rfl, rfl⟩, rfl, rfl, updates, hst, rfl, rfl, rfl⟩

/-- An accepted undo refines `undo`. -/
theorem Represents.undo (h : Represents db s) (env : RevisionEnv) (expectedRevision : Nat)
    {report : EventRevisionReport} {db' : CorpusDb}
    (hok : undoEventRevision env expectedRevision db = (.ok report, db')) :
    ∃ s', s.undo = some s' ∧ Represents db' s' ∧
      db.state.previousStats = some s'.current.stats := by
  obtain ⟨e, he⟩ | ⟨report', previous, retained, json, hrev, -, hprev, hret, hjson, he⟩ :=
    undoEventRevision_cases env expectedRevision db
  · rw [he] at hok
    cases hok
  · rw [he] at hok
    obtain ⟨-, rfl⟩ := Prod.mk.inj hok
    have hp := h.previous
    cases hsp : s.previous with
    | none =>
      rw [hsp] at hp
      rw [hprev] at hp
      cases hp
    | some p =>
      rw [hsp] at hp
      obtain ⟨staged, hst, hev, hevp, hch⟩ := hp.changes
      obtain rfl : retained = p.stats := Option.some.inj (hret.symm.trans hp.stats)
      obtain rfl : json = p.metadata := Option.some.inj (hjson.symm.trans hp.metadata)
      refine ⟨_, by rw [UndoStore.undo, hsp]; rfl, ⟨?_, ?_, rfl⟩, hret⟩
      · rw [← hrev]
        exact congrArg (· + 1) h.revision
      · rw [← hrev, hev, hevp, hch]
        simp only [CorpusDb.snapshot, Option.getD_some, hst.restore_publish]

/-- Updates that name distinct events, each exactly, are published when nothing interferes and
the durable revision can advance. -/
theorem Represents.apply_accepted (h : Represents db s) (hs : s.Holds Snapshot.Sound)
    {metadata : EventRevisionMetadata} {json : Json} {updates : List EventTimestampUpdate}
    (hm : validateMetadata metadata = .ok json) (hst : Staged db.events updates)
    (hmax : db.state.currentRevision + 1 ≤ i64Max) :
    ∃ report, (applyEventTimestampRevision .quiet db.state.currentRevision metadata updates db).1 =
      .ok report := by
  have hsound : db.snapshot.Sound := h.current ▸ hs.1
  have hstats : db.state.stats = recount db.events := hsound.stats
  have hstored := storedRevisionStats_recount db.events
  have hle : updates.length ≤ (recount db.events).eventCount := by
    rw [← hst.updatedCount]
    exact countP_le_length
  have htrans : ∃ result, applyTransaction .quiet db.state.currentRevision json updates db =
      .ok result := by
    simp only [applyTransaction, nextRevision, exists_bind_ok, ensure_ok, require_ok,
      advancedRevision_eq_some]
    refine ⟨(), trivial, _, ⟨rfl, hmax⟩, updates, hst.stageUpdates, (), hst.validateStagedUpdates,
      _, by rw [hstats]; exact hstored, (), hle, _, hst.revisedStats_eq, (), rfl, (),
      by simp [RevisionEnv.quiet], (), hst.updatedCount, (), rfl, (), rfl, (), rfl, exists_pure_ok⟩
  obtain ⟨⟨report, db'⟩, hbody⟩ := htrans
  refine ⟨report, ?_⟩
  have hbefore : (do
      let metadataJson ← validateMetadata metadata
      RevisionEnv.quiet.acquire
      ensure (¬ RevisionEnv.quiet.cancelled .beforeStaging)
        "event re-analysis cancelled before staging"
      pure metadataJson) = .ok json := by
    rw [hm]
    rfl
  rw [applyEventTimestampRevision, guarded_ok hbefore hbody]

/-- An undo that nothing interferes with is accepted while a revision is retained and the durable
revision can still advance. -/
theorem Represents.undo_accepted (h : Represents db s) (hs : s.Holds Snapshot.Sound)
    {p : Snapshot} (hp : s.previous = some p) (hmax : db.state.currentRevision + 1 ≤ i64Max) :
    ∃ report, (undoEventRevision .quiet db.state.currentRevision db).1 = .ok report := by
  have hsound : db.snapshot.Sound := h.current ▸ hs.1
  have hpsound : p.Sound := hs.2 p hp
  have hr := h.previous
  rw [hp] at hr
  obtain ⟨r, hprev, hcur⟩ := hr.revision
  obtain ⟨staged, hst, hev, hevp, hch⟩ := hr.changes
  have hstats : db.state.stats = recount db.events := hsound.stats
  have hstored := storedRevisionStats_recount db.events
  have hpstored := storedRevisionStats_recount p.events
  have hpstats := hr.stats
  rw [hpsound.stats] at hpstats
  have hlen : 0 < staged.length := length_pos_iff.mpr hst.nonempty
  have hnonempty : (recount p.events).eventCount ≠ 0 := by
    intro h0
    obtain ⟨u, hu⟩ := exists_mem_of_ne_nil staged hst.nonempty
    obtain ⟨row, hrow, -⟩ := hst.covers u hu
    have : p.events = [] := length_eq_zero_iff.mp h0
    simp [this] at hrow
  simp only [storedRevisionStats, bind_ok, ensure_ok, pure_ok] at hpstored
  obtain ⟨_, hwall, _, -, _, hbounds, -⟩ := hpstored
  have hbounds' : ¬ ((recount p.events).eventCount = 0 ∨ (recount p.events).tsMin.isNone ∨
      (recount p.events).tsMax.isNone ∨
      ∃ a ∈ (recount p.events).tsMin, ∃ b ∈ (recount p.events).tsMax, b < a) := by
    rintro (h0 | h1)
    · exact hnonempty h0
    · exact hbounds ⟨Nat.pos_of_ne_zero hnonempty, h1⟩
  -- the integrity check counts every change three times, each time once per staged update
  have hintegrity : validateRetainedRevisionIntegrity db db.state.currentRevision r =
      .ok staged.length := by
    simp only [validateRetainedRevisionIntegrity, bind_ok, require_ok, ensure_ok, pure_ok]
    refine ⟨_, hevp, _, hch, (), ?_, _, hpstats, (), ?_, (), ?_, (), ?_, ?_⟩
    · rw [filter_isValid_toChange]
      exact ⟨by simpa using hlen, rfl⟩
    · left
      rw [hst.length_retainedRows, length_map]
    · rw [filter_isValid_toChange, hst.filter_changed, hev, hst.length_mapping, length_map]
      exact ⟨rfl, hcur.symm⟩
    · rw [filter_isValid_toChange, hev, hst.length_payload, length_map]
    · exact length_map _
  have hrestored := hst.restoredCount db.state.currentRevision
  rw [← hev] at hrestored
  have htrans : ∃ result, undoTransaction .quiet db.state.currentRevision db = .ok result := by
    simp only [undoTransaction, nextRevision, exists_bind_ok, ensure_ok, require_ok,
      advancedRevision_eq_some]
    refine ⟨(), trivial, r, hprev, (), by omega, _, ⟨rfl, hmax⟩, _, hpstats, (), hwall, (), hbounds',
      _, by rw [hstats]; exact hstored, (), rfl, _, hintegrity, (), by simp [RevisionEnv.quiet],
      (), ?_, _, hr.metadata, (), rfl, (), rfl, (), rfl, exists_pure_ok⟩
    rw [hevp, hch]
    exact hrestored
  obtain ⟨⟨report, db'⟩, hbody⟩ := htrans
  have hok : undoEventRevision .quiet db.state.currentRevision db = (.ok report, db') :=
    guarded_ok (a := ()) rfl hbody
  exact ⟨report, by rw [hok]⟩

end

end ContextDesk.LogAnalysis
