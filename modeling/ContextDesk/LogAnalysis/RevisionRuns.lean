import ContextDesk.LogAnalysis.RevisionUndo

/-!
# Runs of appends, revisions and undos

`Reachable db`: some sequence of appends, revisions and undos, each accepted or refused, leads
from a new corpus to `db`. No operation forgets or renames an event, so a table whose events have
distinct identities had distinct identities all along; such a corpus is a sound undo store
(`Reachable.represents`). What a run preserves follows from that: the stored statistics are a
recount, and undo returns exactly to the snapshot that the last revision superseded.
-/

namespace ContextDesk.LogAnalysis

open Lib List

inductive RevisionOp where
  | push (commit : CoreResult Unit) (rows : List (LogEvent × Option RedactedOriginal))
  | apply (env : RevisionEnv) (expectedRevision : Nat) (metadata : EventRevisionMetadata)
      (updates : List EventTimestampUpdate)
  | undo (env : RevisionEnv) (expectedRevision : Nat)

/-- The database after the call, whatever it returned. -/
def RevisionOp.run : RevisionOp → CorpusDb → CorpusDb
  | push commit rows, db => (pushEventRows commit rows db).2
  | apply env expectedRevision metadata updates, db =>
    (applyEventTimestampRevision env expectedRevision metadata updates db).2
  | undo env expectedRevision, db => (undoEventRevision env expectedRevision db).2

inductive Reachable : CorpusDb → Prop where
  | create : Reachable .create
  | step {db : CorpusDb} (h : Reachable db) (op : RevisionOp) : Reachable (op.run db)

/-! ## What an operation touches -/

/-- Rows outside `listed` stay; a listed row keeps every column but its timestamp and basis. -/
def TouchesOnly (listed : EventRow → Prop) (before after : List EventRow) : Prop :=
  Forall₂ (fun r r' => r' = r ∨ listed r ∧
    r' = { r with ts := r'.ts, activeTimestampBasis := r'.activeTimestampBasis }) before after

theorem TouchesOnly.updateFrom {β : Type} {listed : EventRow → Prop}
    {on : EventRow → β → Bool} {set : EventRow → β → EventRow} {changes : List β}
    (hset : ∀ r c, set r c =
      { r with ts := (set r c).ts, activeTimestampBasis := (set r c).activeTimestampBasis })
    (hon : ∀ r, ∀ c ∈ changes, on r c = true → listed r) (rows : List EventRow) :
    TouchesOnly listed rows (Lib.updateFrom on set changes rows) := by
  rw [TouchesOnly, Lib.updateFrom, forall₂_map_right_iff]
  refine forall₂_same.mpr fun r _ => ?_
  cases hf : changes.find? (on r) with
  | none => exact .inl (by rw [updateRow, hf])
  | some c =>
    rw [updateRow_of_find hf]
    exact .inr ⟨hon r c (mem_of_find?_eq_some hf) (find?_some hf), hset r c⟩

theorem TouchesOnly.map_key {listed : EventRow → Prop} {before after : List EventRow}
    (h : TouchesOnly listed before after) :
    after.map EventRow.key = before.map EventRow.key := by
  induction h with
  | nil => rfl
  | cons hr _ ih =>
    rw [map_cons, map_cons, ih]
    rcases hr with rfl | ⟨-, hr⟩
    · rfl
    · rw [hr]
      rfl

theorem TouchesOnly.refl (listed : EventRow → Prop) (rows : List EventRow) :
    TouchesOnly listed rows rows :=
  forall₂_same.mpr fun _ _ => .inl rfl

/-- A revision touches the events its updates name. -/
theorem applyEventTimestampRevision_touches (env : RevisionEnv) (expectedRevision : Nat)
    (metadata : EventRevisionMetadata) (updates : List EventTimestampUpdate) (db : CorpusDb) :
    TouchesOnly (fun r => ∃ u ∈ updates, r.key = u.key) db.events
      (applyEventTimestampRevision env expectedRevision metadata updates db).2.events := by
  obtain ⟨e, he⟩ | ⟨_, _, -, -, -, -, -, -, -, he⟩ :=
    applyEventTimestampRevision_cases env expectedRevision metadata updates db
  · rw [he]
    exact .refl _ _
  · rw [he]
    exact .updateFrom (fun _ _ => rfl)
      (fun r u hu hon => ⟨u, hu, (EventRow.isExpected_iff.mp hon).1⟩) db.events

/-- An undo touches the events of the retained audit. -/
theorem undoEventRevision_touches (env : RevisionEnv) (expectedRevision : Nat) (db : CorpusDb) :
    TouchesOnly (fun r => ∃ c ∈ db.timestampChanges.getD [], r.sameChange c = true) db.events
      (undoEventRevision env expectedRevision db).2.events := by
  obtain ⟨e, he⟩ | ⟨_, _, _, _, -, -, -, -, -, he⟩ := undoEventRevision_cases env expectedRevision db
  · rw [he]
    exact .refl _ _
  · rw [he]
    refine .updateFrom (fun _ _ => rfl) (fun r pc hpc hon => ?_) db.events
    obtain ⟨p, c⟩ := pc
    obtain ⟨-, hc, -⟩ := mem_join.mp hpc
    simp only [EventRow.isCurrent, Bool.decide_and, Bool.and_eq_true, decide_eq_true_eq] at hon
    exact ⟨c, (mem_filter.mp hc).1, hon.1⟩

/-- No operation forgets or renames an event. -/
theorem RevisionOp.keys_sublist (op : RevisionOp) (db : CorpusDb) :
    (db.events.map EventRow.key).Sublist ((op.run db).events.map EventRow.key) := by
  cases op with
  | push commit rows =>
    obtain he | ⟨-, -, _, rfl, he⟩ := pushEventRows_cases commit rows db
    · rw [run, he]
    · rw [run, he]
      simp
  | apply env expectedRevision metadata updates =>
    rw [run, (applyEventTimestampRevision_touches env expectedRevision metadata updates db).map_key]
  | undo env expectedRevision =>
    rw [run, (undoEventRevision_touches env expectedRevision db).map_key]

/-! ## The invariant of a run -/

theorem represents_create :
    ∃ s : UndoStore Snapshot, Represents .create s ∧ s.Holds Snapshot.Sound := by
  refine ⟨⟨0, CorpusDb.create.snapshot, none⟩, ⟨rfl, rfl, rfl⟩, ⟨?_, rfl⟩, ?_⟩
  · exact nodup_nil
  · intro p hp
    cases hp

variable {db : CorpusDb}

/-- One operation keeps a property of snapshots true of the active snapshot and of the retained
one, when it is true of what an append or a revision leaves. -/
theorem RevisionOp.run_holds (op : RevisionOp) {P : Snapshot → Prop} {s : UndoStore Snapshot}
    (hP : ∀ x, P x → x.Sound) (h : Represents db s) (hs : s.Holds P)
    (hpush : ∀ commit rows, op = push commit rows → P (op.run db).snapshot)
    (happly : ∀ env r metadata updates, op = apply env r metadata updates →
      P (op.run db).snapshot) :
    ∃ s' : UndoStore Snapshot, Represents (op.run db) s' ∧ s'.Holds P := by
  have hsound : s.Holds Snapshot.Sound := ⟨hP _ hs.1, fun p hp => hP p (hs.2 p hp)⟩
  cases op with
  | push commit rows =>
    have hnew := hpush commit rows rfl
    obtain he | ⟨-, -, appended, -, he⟩ := pushEventRows_cases commit rows db
    · rw [run, he]
      exact ⟨s, h, hs⟩
    · rw [run, he] at hnew ⊢
      refine ⟨s.replace ⟨appended, emptyMetadata, recount appended⟩, ⟨?_, rfl, rfl⟩, ?_⟩
      · exact congrArg (· + 1) h.revision
      · exact UndoStore.Holds.replace s hnew
  | apply env expectedRevision metadata updates =>
    have hnew := happly env expectedRevision metadata updates rfl
    rw [run] at hnew ⊢
    cases hr : applyEventTimestampRevision env expectedRevision metadata updates db with
    | mk result db' =>
      cases result with
      | error e =>
        have := applyEventTimestampRevision_error (congrArg Prod.fst hr)
        rw [hr] at this
        subst this
        exact ⟨s, h, hs⟩
      | ok report =>
        obtain ⟨x, -, -, -, -, -, hrep⟩ := h.apply hsound env expectedRevision metadata updates hr
        rw [hr, hrep.current] at hnew
        exact ⟨s.publish x, hrep, hs.publish hnew⟩
  | undo env expectedRevision =>
    rw [run]
    cases hr : undoEventRevision env expectedRevision db with
    | mk result db' =>
      cases result with
      | error e =>
        have := undoEventRevision_error (congrArg Prod.fst hr)
        rw [hr] at this
        subst this
        exact ⟨s, h, hs⟩
      | ok report =>
        obtain ⟨s', hundo, hrep, -⟩ := h.undo env expectedRevision hr
        exact ⟨s', hrep, hs.undo hundo⟩

theorem RevisionOp.run_represents (op : RevisionOp) {s : UndoStore Snapshot} (h : Represents db s)
    (hs : s.Holds Snapshot.Sound) (hd : Distinct EventRow.key (op.run db).events) :
    ∃ s' : UndoStore Snapshot, Represents (op.run db) s' ∧ s'.Holds Snapshot.Sound := by
  have hsame : (op.run db) = db → (op.run db).snapshot.Sound := by
    intro he
    rw [he, h.current]
    exact hs.1
  refine op.run_holds (fun _ hx => hx) h hs ?_ ?_
  · rintro commit rows rfl
    obtain he | ⟨-, -, appended, -, he⟩ := pushEventRows_cases commit rows db
    · exact hsame he
    · rw [run, he] at hd ⊢
      exact ⟨hd, rfl⟩
  · rintro env r metadata updates rfl
    cases hr : applyEventTimestampRevision env r metadata updates db with
    | mk result db' =>
      cases result with
      | error e => exact hsame (applyEventTimestampRevision_error (congrArg Prod.fst hr))
      | ok report =>
        obtain ⟨x, hx, -, -, -, -, hrep⟩ := h.apply hs env r metadata updates hr
        rw [run, hr, hrep.current]
        exact hx

theorem Reachable.represents (h : Reachable db) (hd : Distinct EventRow.key db.events) :
    ∃ s : UndoStore Snapshot, Represents db s ∧ s.Holds Snapshot.Sound := by
  induction h with
  | create => exact represents_create
  | @step db _ op ih =>
    obtain ⟨s, hrep, hs⟩ := ih (List.Nodup.sublist (op.keys_sublist db) hd)
    exact op.run_represents hrep hs hd

theorem Reachable.sound (h : Reachable db) (hd : Distinct EventRow.key db.events) :
    db.snapshot.Sound := by
  obtain ⟨s, hrep, hs⟩ := h.represents hd
  rw [hrep.current]
  exact hs.1

/-- In every corpus that a run reaches, the stored statistics are a recount of the event table;
the statistics derived for a set of checked updates are a recount of the table they publish; and
the statistics an undo restores are a recount of the table it restores. -/
theorem stored_stats_eq_recount {db : CorpusDb} (h : Reachable db)
    (hd : Distinct EventRow.key db.events) :
    db.state.stats = recount db.events ∧
      (∀ cancelled updates staged, stageUpdates cancelled updates = .ok staged →
        validateStagedUpdates db.events staged = .ok () →
        revisedStats db.events staged db.state.stats =
          .ok (recount (publishStaged staged db.events))) ∧
      ∀ env expectedRevision report db',
        undoEventRevision env expectedRevision db = (.ok report, db') →
        db.state.previousStats = some (recount db'.events) ∧
          db'.state.stats = recount db'.events := by
  obtain ⟨s, hrep, hs⟩ := h.represents hd
  have hsound := h.sound hd
  refine ⟨hsound.stats, ?_, ?_⟩
  · intro cancelled updates staged hstage hval
    have hst : Staged db.events staged := Staged.of_checks hd hstage hval
    rw [show db.state.stats = recount db.events from hsound.stats]
    exact hst.revisedStats_eq
  · intro env expectedRevision report db' hok
    obtain ⟨s', hundo, hrep', hprev⟩ := hrep.undo env expectedRevision hok
    have hs' := (hs.undo hundo).1
    rw [← hrep'.current] at hs' hprev
    have hstats : db'.state.stats = recount db'.events := hs'.stats
    rw [← hstats]
    exact ⟨hprev, rfl⟩

/-- An event with an explicit wall-clock time. -/
def wallEvent (seq : UInt64) (ts : Int) : LogEvent where
  seq := seq
  ts := ts
  timestampProvenance := .explicitWallClock
  activeTimestampBasis := .explicitWall
  unresolvedLocalTimestamp := none
  level := "INFO"
  service := none
  host := none
  templateId := 1
  params := []
  traceId := none
  message := "ready"
  source := "app.log"

/-- Moves the first of these events from `0` to `5`. -/
def wallUpdate : EventTimestampUpdate where
  seq := 0
  source := "app.log"
  expectedTs := 0
  expectedActiveTimestampBasis := .explicitWall
  expectedTimestampProvenance := .explicitWallClock
  expectedUnresolvedLocalTimestamp := none
  revisedTs := 5
  revisedActiveTimestampBasis := .explicitWall

def wallMetadata : EventRevisionMetadata where
  schemaVersion := 1
  operation := "clock.shift"
  details := .null

/-- Both events sit at the old minimum, and the revision moves one of them. -/
theorem stored_stats_eq_recount_after_shift :
    let db := (RevisionOp.apply .quiet 1 wallMetadata [wallUpdate]).run
      ((RevisionOp.push (.ok ()) [(wallEvent 0 0, none), (wallEvent 1 0, none)]).run .create)
    db.state.currentRevision = 2 ∧ Distinct EventRow.key db.events ∧
      db.state.stats = recount db.events :=
  ⟨rfl, by decide, (stored_stats_eq_recount (.step (.step .create _) _) (by decide)).1⟩

/-! ## Events that no revision lists -/

/-- An update of the operation names the event. -/
def RevisionOp.Lists : RevisionOp → Int × String → Prop
  | apply _ _ _ updates, k => ∃ u ∈ updates, k = u.key
  | _, _ => False

def CorpusDb.Audits (db : CorpusDb) (k : Int × String) : Prop :=
  ∃ c ∈ db.timestampChanges.getD [], k = (c.seq, c.source)

/-- Every event is in its place; it has what was ingested, and its time if it is not listed. -/
def Retained (listed : Int × String → Prop) (before after : List EventRow) : Prop :=
  ∀ (i : Nat) (r : EventRow), before[i]? = some r → ∃ r', after[i]? = some r' ∧
    (r' = r ∨ listed r.key ∧
      r' = { r with ts := r'.ts, activeTimestampBasis := r'.activeTimestampBasis })

variable {listed₁ listed₂ listed : Int × String → Prop} {before after : List EventRow}

theorem Retained.of_touches {p : EventRow → Prop} (h : TouchesOnly p before after)
    (hp : ∀ r, p r → listed r.key) : Retained listed before after := by
  induction h with
  | nil => exact fun i r hr => by cases hr
  | cons hr _ ih =>
    rintro (_ | i) r hi
    · cases hi
      exact ⟨_, rfl, hr.imp_right fun ⟨hlisted, heq⟩ => ⟨hp _ hlisted, heq⟩⟩
    · exact ih i r hi

theorem Retained.trans {last : List EventRow} (h₁ : Retained listed₁ before after)
    (h₂ : Retained listed₂ after last) (hsub₁ : ∀ k, listed₁ k → listed k)
    (hsub₂ : ∀ k, listed₂ k → listed k) : Retained listed before last := by
  intro i r hi
  obtain ⟨r₁, hi₁, hr₁⟩ := h₁ i r hi
  obtain ⟨r₂, hi₂, hr₂⟩ := h₂ i r₁ hi₁
  refine ⟨r₂, hi₂, ?_⟩
  rcases hr₁ with rfl | ⟨hlisted, heq⟩
  · exact hr₂.imp_right fun ⟨hlisted, heq⟩ => ⟨hsub₂ _ hlisted, heq⟩
  · refine .inr ⟨hsub₁ _ hlisted, ?_⟩
    rcases hr₂ with rfl | ⟨-, heq'⟩
    · exact heq
    · rw [heq', heq]

theorem RevisionOp.run_retains (op : RevisionOp) (db : CorpusDb) :
    Retained (fun k => op.Lists k ∨ db.Audits k) db.events (op.run db).events ∧
      ∀ k, (op.run db).Audits k → op.Lists k ∨ db.Audits k := by
  cases op with
  | push commit rows =>
    rw [run]
    obtain he | ⟨-, -, _, rfl, he⟩ := pushEventRows_cases commit rows db <;> rw [he]
    · exact ⟨.of_touches (.refl (fun _ => False) _) fun _ h => h.elim, fun _ => .inr⟩
    · refine ⟨fun i r hi => ⟨r, ?_, .inl rfl⟩, ?_⟩
      · exact (getElem?_append_left (List.getElem?_eq_some_iff.mp hi).1).trans hi
      · rintro k ⟨c, hc, -⟩
        cases hc
  | apply env expectedRevision metadata updates =>
    refine ⟨.of_touches (applyEventTimestampRevision_touches ..) fun _ => .inl, fun k hk => ?_⟩
    rw [run] at hk
    obtain ⟨e, he⟩ | ⟨_, _, -, -, -, -, -, -, -, he⟩ :=
      applyEventTimestampRevision_cases env expectedRevision metadata updates db <;> rw [he] at hk
    · exact .inr hk
    · obtain ⟨c, hc, rfl⟩ := hk
      obtain ⟨u, hu, rfl⟩ := mem_map.mp hc
      exact .inl ⟨u, hu, rfl⟩
  | undo env expectedRevision =>
    refine ⟨.of_touches (undoEventRevision_touches ..) fun r ⟨c, hc, hsame⟩ => .inr ⟨c, hc, ?_⟩, ?_⟩
    · rw [EventRow.sameChange, decide_eq_true_eq] at hsame
      exact Prod.ext hsame.1 hsame.2
    · intro k hk
      rw [run] at hk
      obtain ⟨e, he⟩ | ⟨_, _, _, _, -, -, -, -, -, he⟩ :=
        undoEventRevision_cases env expectedRevision db <;> rw [he] at hk
      · exact .inr hk
      · obtain ⟨c, hc, -⟩ := hk
        cases hc

/-- Whatever order of appends, revisions and undos: every event keeps its place and what was
ingested, and one that no update lists keeps its time. -/
theorem events_retained (ops : List RevisionOp) (db : CorpusDb) :
    Retained (fun k => (∃ op ∈ ops, op.Lists k) ∨ db.Audits k) db.events
      (ops.foldl (fun db op => op.run db) db).events := by
  induction ops generalizing db with
  | nil => exact .of_touches (.refl (fun _ => False) _) fun _ h => h.elim
  | cons op ops ih =>
    obtain ⟨hkept, haudits⟩ := op.run_retains db
    refine hkept.trans (ih (op.run db)) (fun k hk => ?_) fun k hk => ?_
    · exact hk.imp_left fun h => ⟨op, mem_cons_self, h⟩
    · rcases hk with ⟨op', hop, hlists⟩ | haudit
      · exact .inl ⟨op', mem_cons_of_mem _ hop, hlists⟩
      · exact (haudits k haudit).imp_left fun h => ⟨op, mem_cons_self, h⟩

/-! ## Undo after a revision -/

/-- From every reachable corpus with distinct identities and two revisions to spare, an accepted
revision can be undone at once. The undo brings back every row, the metadata and the statistics,
advances the durable revision, and leaves nothing to undo; both operations touch only the
timestamp and basis of the listed events; and a refused call changes nothing. -/
theorem undo_restores_superseded {db : CorpusDb} (h : Reachable db)
    (hd : Distinct EventRow.key db.events) (hmax : db.state.currentRevision + 2 ≤ i64Max) :
    (∀ env revision metadata updates report db₁,
      applyEventTimestampRevision env revision metadata updates db = (.ok report, db₁) →
      revision = db.state.currentRevision ∧ db₁.state.currentRevision = revision + 1 ∧
      TouchesOnly (fun r => ∃ u ∈ updates, r.key = u.key) db.events db₁.events ∧
      (∃ report₂, (undoEventRevision .quiet (revision + 1) db₁).1 = .ok report₂) ∧
      ∀ env₂ report₂ db₂, undoEventRevision env₂ (revision + 1) db₁ = (.ok report₂, db₂) →
        db₂.events = db.events ∧
        db₂.state.currentMetadataJson = db.state.currentMetadataJson ∧
        db₂.state.stats = db.state.stats ∧ db₂.state.currentRevision = revision + 2 ∧
        TouchesOnly (fun r => ∃ u ∈ updates, r.key = u.key) db₁.events db₂.events ∧
        ∀ env₃ revision₃, ∃ e, undoEventRevision env₃ revision₃ db₂ = (.error e, db₂)) ∧
    (∀ env revision metadata updates db' e,
      (applyEventTimestampRevision env revision metadata updates db').1 = .error e →
      (applyEventTimestampRevision env revision metadata updates db').2 = db') ∧
    ∀ env revision db' e, (undoEventRevision env revision db').1 = .error e →
      (undoEventRevision env revision db').2 = db' := by
  refine ⟨?_, fun _ _ _ _ _ _ => applyEventTimestampRevision_error,
    fun _ _ _ _ => undoEventRevision_error⟩
  intro env revision metadata updates report db₁ hok
  obtain ⟨s, hrep, hs⟩ := h.represents hd
  obtain ⟨x, hx, -, -, -, -, hrep₁⟩ := hrep.apply hs env revision metadata updates hok
  have hs₁ : (s.publish x).Holds Snapshot.Sound := hs.publish hx
  have htouch := applyEventTimestampRevision_touches env revision metadata updates db
  rw [hok] at htouch
  obtain ⟨e, he⟩ | ⟨_, _, hrev, -, -, -, -, -, -, he⟩ :=
    applyEventTimestampRevision_cases env revision metadata updates db
  · rw [he] at hok
    cases hok
  have hdb₁ := (Prod.mk.inj (he.symm.trans hok)).2
  subst hrev
  have hrev₁ : db₁.state.currentRevision = db.state.currentRevision + 1 := by rw [← hdb₁]
  have hchanges : db₁.timestampChanges =
      some (updates.map fun u => u.toChange (db.state.currentRevision + 1)) := by rw [← hdb₁]
  refine ⟨rfl, hrev₁, htouch, ?_, ?_⟩
  · have := hrep₁.undo_accepted hs₁ (p := s.current) rfl (by omega)
    rwa [hrev₁] at this
  · intro env₂ report₂ db₂ hok₂
    obtain ⟨s₂, hundo, hrep₂, -⟩ := hrep₁.undo env₂ _ hok₂
    obtain rfl := Option.some.inj ((UndoStore.undo_publish s x).symm.trans hundo)
    have hsnap : db₂.snapshot = db.snapshot := hrep₂.current.trans hrep.current.symm
    have htouch₂ := undoEventRevision_touches env₂ (db.state.currentRevision + 1) db₁
    rw [hok₂, hchanges] at htouch₂
    refine ⟨congrArg Snapshot.events hsnap, congrArg Snapshot.metadata hsnap,
      congrArg Snapshot.stats hsnap, ?_, ?_, ?_⟩
    · rw [hrep₂.revision, hrep.revision]
    · refine htouch₂.imp fun r r' hr => hr.imp_right fun ⟨⟨c, hc, hsame⟩, hr⟩ => ⟨?_, hr⟩
      obtain ⟨u, hu, rfl⟩ := mem_map.mp hc
      exact ⟨u, hu, EventRow.sameChange_iff.mp hsame⟩
    · intro env₃ revision₃
      obtain he₃ | ⟨_, _, _, _, -, -, hprev, -⟩ := undoEventRevision_cases env₃ revision₃ db₂
      · exact he₃
      · have : db₂.state.previousRevision = none := hrep₂.previous
        rw [this] at hprev
        cases hprev

theorem undo_restores_superseded_after_shift :
    let db := (RevisionOp.push (.ok ()) [(wallEvent 0 0, none), (wallEvent 1 0, none)]).run .create
    let db₁ := (applyEventTimestampRevision .quiet 1 wallMetadata [wallUpdate] db).2
    (db₁.events.map EventRow.ts = [5, 0]) ∧
      ∃ report, (undoEventRevision .quiet 2 db₁).1 = .ok report :=
  ⟨by decide, ((undo_restores_superseded (.step .create (.push (.ok ()) [(wallEvent 0 0, none),
    (wallEvent 1 0, none)])) (by decide) (by decide)).1 .quiet 1 wallMetadata [wallUpdate] _ _
    rfl).2.2.2.1⟩

/-- Two events that share sequence and source. -/
def twinCorpus : CorpusDb :=
  (RevisionOp.push (.ok ()) [(wallEvent 0 0, none), (wallEvent 0 9, none)]).run .create

/-- A corpus after `n` appends of one event each. -/
def appendedCorpus (n : Nat) : CorpusDb where
  events := (List.range n).map fun i => .ofEvent (wallEvent (UInt64.ofNat i) 0) none
  state :=
    { currentRevision := n
      currentMetadataJson := emptyMetadata
      stats := recount ((List.range n).map fun i => .ofEvent (wallEvent (UInt64.ofNat i) 0) none)
      previousRevision := none
      previousMetadataJson := none
      previousStats := none }
  eventsPrevious := none
  timestampChanges := none

variable {n : Nat}

theorem appendedCorpus_succ (hn : n + 1 ≤ i64Max) :
    (RevisionOp.push (.ok ()) [(wallEvent (UInt64.ofNat n) 0, none)]).run (appendedCorpus n) =
      appendedCorpus (n + 1) := by
  have hrev : advancedRevision n = some (n + 1) := advancedRevision_eq_some.mpr ⟨rfl, hn⟩
  have hwall (l : List EventRow) : (recount l).wallEventCount ≤ (recount l).eventCount :=
    countP_le_length
  have hpush : pushEventRows (.ok ()) [(wallEvent (UInt64.ofNat n) 0, none)] (appendedCorpus n) =
      (.ok (), appendedCorpus (n + 1)) := by
    simp only [pushEventRows, isEmpty_cons, Bool.false_eq_true, ↓reduceIte]
    refine atomically_ok ?_
    simp only [advanceEventRevisionAfterAppend, bind_ok, pure_ok, require_ok, ensure_ok]
    refine ⟨_, ⟨_, hrev, (), hwall _, rfl⟩, (), trivial, ?_⟩
    simp [appendedCorpus, range_succ]
  rw [RevisionOp.run, hpush]

theorem reachable_appendedCorpus (hn : n ≤ i64Max) : Reachable (appendedCorpus n) := by
  induction n with
  | zero => exact .create
  | succ n ih =>
    rw [← appendedCorpus_succ hn]
    exact .step (ih (by omega)) _

theorem distinct_appendedCorpus (hn : n ≤ i64Max) :
    Distinct EventRow.key (appendedCorpus n).events := by
  unfold Distinct appendedCorpus
  rw [map_map]
  refine List.Nodup.map_on (fun i hi j hj e => ?_) nodup_range
  have hseq : asI64 (UInt64.ofNat i) = asI64 (UInt64.ofNat j) := congrArg Prod.fst e
  have hnat := congrArg UInt64.toNat (asI64_injective hseq)
  rw [mem_range] at hi hj
  unfold i64Max at hn
  simp only [UInt64.toNat_ofNat'] at hnat
  omega

theorem staged_wallUpdate (hn : n + 1 ≤ i64Max) :
    Staged (appendedCorpus (n + 1)).events [wallUpdate] := by
  refine ⟨distinct_appendedCorpus hn, by decide, ?_, ?_, by simp⟩
  · intro u hu
    rw [mem_singleton] at hu
    subst hu
    refine ⟨.ofEvent (wallEvent 0 0) none, ?_, by decide⟩
    exact mem_map.mpr ⟨0, mem_range.mpr (by omega), rfl⟩
  · intro u hu
    rw [mem_singleton] at hu
    subst hu
    rfl

def fullCorpus : CorpusDb := appendedCorpus (i64Max - 1)

/-- Undo is refused after an accepted revision when the corpus holds two events with one
identity, and when the revision took the last revision number. -/
theorem undo_refused_after_revision :
    (Reachable twinCorpus ∧ twinCorpus.state.currentRevision = 1 ∧
      (∃ report, (applyEventTimestampRevision .quiet 1 wallMetadata [wallUpdate] twinCorpus).1 =
        .ok report) ∧
      (undoEventRevision .quiet 2
        (applyEventTimestampRevision .quiet 1 wallMetadata [wallUpdate] twinCorpus).2).1 =
        .error ("active event identity, payload, raw representation, or provenance changed; " ++
          "undo refused")) ∧
    Reachable fullCorpus ∧ Distinct EventRow.key fullCorpus.events ∧
      fullCorpus.state.currentRevision = i64Max - 1 ∧
      (∃ report, (applyEventTimestampRevision .quiet (i64Max - 1) wallMetadata [wallUpdate]
        fullCorpus).1 = .ok report) ∧
      ∃ e, (undoEventRevision .quiet i64Max (applyEventTimestampRevision .quiet (i64Max - 1)
        wallMetadata [wallUpdate] fullCorpus).2).1 = .error e := by
  have hle : i64Max - 1 ≤ i64Max := Nat.sub_le _ _
  have hr : Reachable fullCorpus := reachable_appendedCorpus hle
  have hd : Distinct EventRow.key fullCorpus.events := distinct_appendedCorpus hle
  refine ⟨⟨.step .create _, rfl, ⟨_, rfl⟩, rfl⟩, hr, hd, rfl, ?_, ?_⟩
  · obtain ⟨s, hrep, hs⟩ := hr.represents hd
    have hm : validateMetadata wallMetadata = .ok wallMetadata.toJson := rfl
    exact hrep.apply_accepted hs hm (staged_wallUpdate (n := i64Max - 2) (by decide)) (by decide)
  · obtain ⟨e, he⟩ | ⟨_, _, _, _, -, hlt, -⟩ := undoEventRevision_cases .quiet i64Max
      (applyEventTimestampRevision .quiet (i64Max - 1) wallMetadata [wallUpdate] fullCorpus).2
    · exact ⟨e, by rw [he]⟩
    · omega

end ContextDesk.LogAnalysis
