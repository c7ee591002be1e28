import ContextDesk.Cases.Permits

/-!
# A call whose statement fails

One statement of a call fails, at a position of the call that is reached, and the others do not. The
call throws then. What is recorded is what was recorded before, for every call whose writes are in
one transaction. `setOccurredAt` has no transaction, and the resolution guard of `setStatus` records
before it; `HoldsWhen` says at which positions nothing of theirs has been recorded yet.
-/

namespace ContextDesk

open Lib

structure Unchanged (db db' : CaseDb) : Prop where
  cases : db'.cases = db.cases
  timeline : db'.timeline = db.timeline
  revisions : db'.revisions = db.revisions
  snapshots : db'.snapshots = db.snapshots
  audit : db'.audit = db.audit

theorem Unchanged.refl (db : CaseDb) : Unchanged db db := ⟨rfl, rfl, rfl, rfl, rfl⟩

theorem Unchanged.trans {a b c : CaseDb} (hab : Unchanged a b) (hbc : Unchanged b c) :
    Unchanged a c :=
  ⟨hbc.cases.trans hab.cases, hbc.timeline.trans hab.timeline, hbc.revisions.trans hab.revisions,
    hbc.snapshots.trans hab.snapshots, hbc.audit.trans hab.audit⟩

/-- The position of the event or record that the resolution guard of a status change writes: its
earlier statements read, or write resolutions. -/
def guardRecord (env : CaseEnv) (db : CaseDb) (call : StatusCall) : Option Nat :=
  match db.cases call.caseId with
  | none => none
  | some row =>
    let superseded := if (db.activeResolution call.caseId).isSome then 1 else 0
    if env.resolutionGuard = false ∨ isLifecycleTransition row.status call.status = true then none
    else if statusRequiresResolution call.status = false then
      if statusRequiresResolution row.status = true ∧ superseded = 1 then some 3 else none
    else if call.options.resolution.isSome then some (4 + superseded) else none

/-- The condition under which a call that fails at `position` leaves no trace. -/
def CaseCall.HoldsWhen (env : CaseEnv) (stamp : Stamp) (db : CaseDb) (position : Nat) :
    CaseCall → Prop
  | .setOccurredAt caseId _ input _ _ =>
    position ≤ 1 ∨ position = 2 ∧ ∃ row, db.cases caseId = some row ∧
      env.normalizeOccurredAt (stamp.now 0) input = .ok row.occurrence
  | .setStatus call => ∀ record ∈ guardRecord env db call, position ≤ record
  | _ => True

/-- The events and the audit records only get more. -/
def Grows (db db' : CaseDb) : Prop :=
  (∀ id, (db.timeline id).length ≤ (db'.timeline id).length) ∧ db.audit.length ≤ db'.audit.length

theorem length_appended (db : CaseDb) (id caseId : JsString) (event : TimelineInsert)
    (now : UtcTime) :
    ((db.appended caseId event now).timeline id).length =
      (db.timeline id).length + if id = caseId then 1 else 0 := by
  simp only [CaseDb.appended, Function.update_apply]
  split
  · rename_i heq
    rw [heq, List.length_append]
    rfl
  · rfl

theorem grows_appended (db : CaseDb) (caseId : JsString) (event : TimelineInsert) (now : UtcTime) :
    Grows db (db.appended caseId event now) := by
  refine ⟨fun id => ?_, le_rfl⟩
  rw [length_appended]
  exact Nat.le_add_right _ _

theorem permits_grows : PermitsStatus Grows where
  refl _ := ⟨fun _ => le_rfl, le_rfl⟩
  trans _ _ _ hab hbc := ⟨fun id => (hab.1 id).trans (hbc.1 id), hab.2.trans hbc.2⟩
  row _ _ _ _ _ _ _ := ⟨fun _ => le_rfl, le_rfl⟩
  timeline db id event now _ _ := grows_appended db id event now
  record db record := ⟨fun _ => le_rfl, by
    simp only [CaseDb.record, List.length_append]
    exact Nat.le_add_right _ _⟩
  revised _ _ := ⟨fun _ => le_rfl, le_rfl⟩
  snapshots _ _ := ⟨fun _ => le_rfl, le_rfl⟩
  resolutions _ _ := ⟨fun _ => le_rfl, le_rfl⟩
  status _ _ _ _ _ := ⟨fun _ => le_rfl, le_rfl⟩
  event db id event now _ := grows_appended db id event now

variable {α : Type}

theorem grows_of_made {x : CaseM α} (hx : Sql.Made .failed Grows x) (w : Work CaseDb) :
    Grows w.db (x w).2.db :=
  hx.keeps permits_grows.refl permits_grows.trans w

variable {db db₁ : CaseDb} {caseId : JsString} {event : TimelineInsert} {now : UtcTime}

theorem changed_by_event {db' : CaseDb} (htimeline : db₁.timeline = db.timeline)
    (hgrows : Grows (db₁.appended caseId event now) db') : ¬ Unchanged db db' := by
  intro h
  have hlonger := hgrows.1 caseId
  rw [length_appended, if_pos rfl, htimeline, h.timeline] at hlonger
  omega

theorem changed_by_record {db' : CaseDb} {record : AuditRecord} (haudit : db₁.audit = db.audit)
    (hgrows : Grows (db₁.record record) db') : ¬ Unchanged db db' := by
  intro h
  have hlength : (db₁.record record).audit.length = db.audit.length + 1 := by
    rw [CaseDb.record, List.length_append, haudit]
    rfl
  have hlonger := hgrows.2
  rw [hlength, h.audit] at hlonger
  omega

variable {env : CaseEnv} {stamp : Stamp}

/-! ## Every call throws -/

theorem permits_true : PermitsStatus fun _ _ => True where
  refl _ := trivial
  trans _ _ _ _ _ := trivial
  row _ _ _ _ _ _ _ := trivial
  timeline _ _ _ _ _ _ := trivial
  record _ _ := trivial
  revised _ _ := trivial
  snapshots _ _ := trivial
  resolutions _ _ := trivial
  status _ _ _ _ _ := trivial
  event _ _ _ _ _ := trivial

theorem reports_runCall (call : CaseCall) : Sql.Reports .failed (runCall env stamp call) := by
  have hR := permits_true
  have hp := permits_true.toPermits
  cases call with
  | createCase =>
    exact Sql.reports_void (made_createCase hp fun _ _ => trivial).reports
  | setOccurredAt => exact Sql.reports_void (made_setOccurredAt hp).reports
  | updateSituation => exact Sql.reports_void (made_updateSituation hp).reports
  | setStatus => exact Sql.reports_void (made_setStatus hR).reports
  | applyLifecycleAction => exact Sql.reports_void (made_applyLifecycleAction hR).reports
  | addParticipant => exact Sql.reports_void (made_addParticipant hp).reports
  | setLegalHold => exact Sql.reports_void (made_setLegalHold hp).reports
  | reviseContribution =>
    exact Sql.reports_void (made_reviseContribution hp).reports
  | tombstoneContribution =>
    exact Sql.reports_void (made_tombstoneContribution hp).reports
  | setHypothesisStatus =>
    exact Sql.reports_void (made_setHypothesisStatus hp).reports
  | createSnapshot => exact Sql.reports_void (made_createSnapshot hp).reports

/-! ## Calls in one transaction -/

theorem reads_attempt {f : CaseDb → Except Thrown (α × CaseDb)}
    (hf : ∀ db a db', f db = .ok (a, db') → db' = db) : Sql.Reads (CaseM.attempt f) :=
  Sql.reads_step hf

theorem reads_select (f : CaseDb → α) : Sql.Reads (CaseM.select f) := by
  refine reads_attempt fun db a db' h => ?_
  cases h
  rfl

theorem reads_requireCase (id : JsString) : Sql.Reads (requireCase id) :=
  Sql.reads_bind (reads_select _) fun _ => Sql.reads_lift _

theorem reads_requireLatest (caseId contributionId : JsString) :
    Sql.Reads (requireLatest caseId contributionId) :=
  Sql.reads_bind (reads_select _) fun _ => Sql.reads_lift _

theorem reads_onUniqueViolation (caseId contributionId : JsString) (e : Thrown) :
    Sql.Reads (onUniqueViolation caseId contributionId e : CaseM α) := by
  cases e with
  | uniqueViolation => exact Sql.reads_bind (reads_requireLatest _ _) fun _ => Sql.reads_fail _
  | _ => exact Sql.reads_fail _

variable {actor : Actor} {origin : JsString}

/-- A result that is thrown as a conflict comes from a transaction that wrote nothing. -/
theorem updateSituationAtomic_row {p : PreparedCall env.canonicalClientTime} {w w' : Work CaseDb}
    {result : AtomicSituationUpdateResult}
    (h : updateSituationAtomic stamp caseId actor p origin w = (.ok result, w')) :
    (∃ row, result.row = .ok row) ∨ w'.db = w.db := by
  unfold updateSituationAtomic at h
  rcases Sql.atomic_cases _ w with ⟨_, w₁, hx, ha⟩ | ⟨e, w₁, -, ha⟩
  · rw [ha] at h
    cases h
    obtain ⟨existing, w₂, hget, hx⟩ := Sql.bind_ok.mp hx
    have hread := reads_select (·.cases caseId) w
    rw [show CaseM.select (·.cases caseId) w = (.ok existing, w₂) from hget] at hread
    cases existing with
    | none =>
      cases (Sql.pure_ok.mp hx).2
      exact .inr hread
    | some existing =>
      dsimp only at hx
      split at hx
      · cases (Sql.pure_ok.mp hx).2
        exact .inr hread
      · split at hx
        · cases (Sql.pure_ok.mp hx).1
          exact .inl ⟨existing, rfl⟩
        · unfold writeSituation at hx
          obtain ⟨_, _, -, hx⟩ := Sql.bind_ok.mp hx
          obtain ⟨_, _, -, hx⟩ := Sql.bind_ok.mp hx
          obtain ⟨_, _, -, hx⟩ := Sql.bind_ok.mp hx
          cases (Sql.pure_ok.mp hx).1
          exact .inl ⟨_, rfl⟩
  · rw [ha] at h
    cases h

theorem undoes_updateSituation (caseId : JsString) (actor : Actor) (call : SituationCall)
    (origin : JsString) : Sql.Undoes (updateSituation env stamp caseId actor call origin) := by
  refine Sql.undoes_bind (Sql.reads_lift _) fun _ => Sql.undoes_bind (Sql.reads_lift _) fun _ =>
    Sql.undoes_bind (reads_requireCase _) fun _ => Sql.undoes_bind (Sql.reads_lift _) fun p => ?_
  intro w e w' h
  rcases Sql.bind_cases (updateSituationAtomic stamp caseId actor p origin)
    (fun result => Sql.lift result.row) w with ⟨result, w₁, hx, hbind⟩ | ⟨e', w₁, hx, hbind⟩
  · rw [hbind] at h
    rcases updateSituationAtomic_row hx with ⟨row, hrow⟩ | hsame
    · rw [hrow] at h
      cases h
    · have hsecond : w₁ = w' := congrArg Prod.snd h
      rw [← hsecond]
      exact hsame
  · rw [hbind] at h
    cases h
    exact Sql.undoes_atomic _ _ _ _ hx

/-- The calls that write in one transaction and only read before it. -/
def CaseCall.Transactional : CaseCall → Prop
  | .setOccurredAt .. | .setStatus _ => False
  | _ => True

theorem undoes_runCall {call : CaseCall} (h : call.Transactional) :
    Sql.Undoes (runCall env stamp call) := by
  have hatomic {α : Type} (x : CaseM α) := Sql.undoes_atomic x
  have hviolation {α : Type} (caseId contributionId : JsString) (e : Thrown) :=
    (reads_onUniqueViolation (α := α) caseId contributionId e).undoes
  cases call with
  | setOccurredAt => exact h.elim
  | setStatus => exact h.elim
  | createCase =>
    exact Sql.undoes_void (Sql.undoes_bind (Sql.reads_lift _) fun _ =>
      Sql.undoes_bind (Sql.reads_lift _) fun _ => Sql.undoes_bind (Sql.reads_lift _) fun _ =>
      Sql.undoes_bind (Sql.reads_lift _) fun _ => hatomic _)
  | updateSituation => exact Sql.undoes_void (undoes_updateSituation _ _ _ _)
  | applyLifecycleAction => exact Sql.undoes_void (undoes_applyLifecycleAction _ _ _ _ _)
  | addParticipant =>
    exact Sql.undoes_void (Sql.undoes_bind (reads_requireCase _) fun _ => hatomic _)
  | setLegalHold => exact Sql.undoes_void (hatomic _)
  | reviseContribution =>
    exact Sql.undoes_void (Sql.undoes_bind (Sql.reads_lift _) fun _ =>
      Sql.undoes_handle (hatomic _) (hviolation _ _))
  | tombstoneContribution =>
    exact Sql.undoes_void (Sql.undoes_handle (hatomic _) (hviolation _ _))
  | setHypothesisStatus =>
    exact Sql.undoes_void (Sql.undoes_bind (Sql.reads_lift _) fun _ =>
      Sql.undoes_handle (hatomic _) (hviolation _ _))
  | createSnapshot =>
    exact Sql.undoes_void (Sql.undoes_bind (Sql.reads_lift _) fun _ =>
      Sql.undoes_bind (reads_requireCase _) fun _ => Sql.undoes_bind (Sql.reads_lift _) fun _ =>
      hatomic _)

/-! ## `setOccurredAt` -/

theorem ok_or_error (x : Outcome α) : (∃ a, x = .ok a) ∨ ∃ e, x = .error e := by
  cases x with
  | ok a => exact .inl ⟨a, rfl⟩
  | error e => exact .inr ⟨e, rfl⟩

theorem orError_ok {x : Outcome α} {a : α} (h : x = .ok a) (w : Work CaseDb) :
    orError x w = (.ok a, w) := by
  rw [h]
  rfl

theorem orError_error {x : Outcome α} {e : String} (h : x = .error e) (w : Work CaseDb) :
    orError x w = (.error (.error e), w) := by
  rw [h]
  rfl

theorem select_failAt (f : CaseDb → α) (db : CaseDb) (position : Nat) :
    CaseM.select f ⟨db, Sql.failAt (position + 1)⟩ = (.ok (f db), ⟨db, Sql.failAt position⟩) := rfl

theorem requireCase_failAt (db : CaseDb) (id : JsString) (position : Nat) :
    requireCase id ⟨db, Sql.failAt (position + 1)⟩ =
      Sql.orFail (db.cases id) (.error "case not found") ⟨db, Sql.failAt position⟩ :=
  Sql.bind_of_ok (select_failAt (·.cases id) db position)

variable {id : JsString}

theorem requireCase_none (h : db.cases id = none) (position : Nat) :
    requireCase id ⟨db, Sql.failAt (position + 1)⟩ =
      (.error (.error "case not found"), ⟨db, Sql.failAt position⟩) := by
  rw [requireCase_failAt, h]
  rfl

variable {row : CaseRow}

theorem requireCase_some (h : db.cases id = some row) (position : Nat) :
    requireCase id ⟨db, Sql.failAt (position + 1)⟩ =
      (.ok row, ⟨db, Sql.failAt position⟩) := by
  rw [requireCase_failAt, h]
  rfl

theorem updateCase_some (h : db.cases id = some row) (f : CaseRow → CaseRow) (position : Nat) :
    updateCase id f ⟨db, Sql.failAt (position + 1)⟩ =
      (.ok (), ⟨db.setCase id (f row), Sql.failAt position⟩) := by
  unfold updateCase CaseM.attempt
  rw [Sql.step_failAt_succ, h]

/-- An event that is appended at a position stays. -/
theorem appendTimeline_succ (db : CaseDb) (id : JsString) (event : TimelineInsert) (now : UtcTime)
    (position : Nat) :
    appendTimeline id event now ⟨db, Sql.failAt (position + 1)⟩ =
        (.ok (), ⟨db.appended id event now, Sql.failAt position⟩) ∨
      appendTimeline id event now ⟨db, Sql.failAt (position + 1)⟩ =
        (.error (.error "Invalid array length"), ⟨db, Sql.failAt position⟩) := by
  unfold appendTimeline CaseM.attempt
  rw [Sql.step_failAt_succ]
  split
  · split at *
    · cases ‹_›
    · cases ‹_›
      exact .inr rfl
  · split at *
    · cases ‹_›
      exact .inl rfl
    · cases ‹_›

theorem setCase_eq {row' : CaseRow} (h : db.cases id = some row) :
    (db.setCase id row').cases = db.cases ↔ row' = row := by
  constructor
  · intro hsame
    have hrow := congrFun hsame id
    rw [h] at hrow
    simp only [CaseDb.setCase, Function.update_self] at hrow
    exact Option.some.inj hrow
  · rintro rfl
    exact Function.update_eq_self_iff.mpr h.symm

variable {position : Nat}

theorem setOccurredAt_failAt {input : OccurredAtInput} {clientTime : Option JsString}
    (hmet : (setOccurredAt env stamp caseId actor input origin clientTime
      ⟨db, Sql.failAt position⟩).2.faults = []) :
    Unchanged db (setOccurredAt env stamp caseId actor input origin clientTime
        ⟨db, Sql.failAt position⟩).2.db ↔
      position ≤ 1 ∨ position = 2 ∧ ∃ row, db.cases caseId = some row ∧
        env.normalizeOccurredAt (stamp.now 0) input = .ok row.occurrence := by
  have hleft (k : Nat) (h : Sql.failAt k = []) : False := Sql.failAt_ne_nil k h
  unfold setOccurredAt at hmet ⊢
  rcases ok_or_error (env.canonicalClientTime clientTime) with ⟨canonicalTime, htime⟩ | ⟨e, htime⟩
  case inr =>
    rw [Sql.bind_of_error (orError_error htime _)] at hmet
    exact (hleft _ hmet).elim
  rw [Sql.bind_of_ok (orError_ok htime _)] at hmet ⊢
  rcases position with _ | position
  · exact iff_of_true (Unchanged.refl db) (.inl (by omega))
  rcases Option.eq_none_or_eq_some (db.cases caseId) with hrow | ⟨row, hrow⟩
  · rw [Sql.bind_of_error (requireCase_none hrow position)] at hmet
    exact (hleft _ hmet).elim
  rw [Sql.bind_of_ok (requireCase_some hrow position)] at hmet ⊢
  rcases ok_or_error (env.normalizeOccurredAt (stamp.now 0) input) with
    ⟨occurrence, hoccurrence⟩ | ⟨e, hoccurrence⟩
  case inr =>
    rw [Sql.bind_of_error (orError_error hoccurrence _)] at hmet
    exact (hleft _ hmet).elim
  rw [Sql.bind_of_ok (orError_ok hoccurrence _)] at hmet ⊢
  rcases position with _ | position
  · exact iff_of_true (Unchanged.refl db) (.inl le_rfl)
  have hupdate : updateOccurredAt caseId occurrence ⟨db, Sql.failAt (position + 1)⟩ =
      (.ok (), ⟨db.setCase caseId { row with occurrence }, Sql.failAt position⟩) :=
    updateCase_some hrow _ position
  rw [Sql.bind_of_ok hupdate] at hmet ⊢
  rcases position with _ | position
  · -- the event is not appended, and the row is written
    have hcases : Unchanged db (db.setCase caseId { row with occurrence }) ↔
        occurrence = row.occurrence := by
      constructor
      · intro h
        exact congrArg CaseRow.occurrence ((setCase_eq hrow).mp h.cases)
      · rintro rfl
        exact ⟨(setCase_eq hrow).mpr rfl, rfl, rfl, rfl, rfl⟩
    refine hcases.trans ⟨fun h => .inr ⟨rfl, row, hrow, ?_⟩, ?_⟩
    · rw [hoccurrence, h]
    · rintro (h | ⟨-, row', hrow', h⟩)
      · omega
      · rw [hrow] at hrow'
        rw [hoccurrence] at h
        cases hrow'
        exact Except.ok.inj h
  · refine iff_of_false ?_ (by omega)
    rcases appendTimeline_succ (db.setCase caseId { row with occurrence }) caseId _
      (stamp.now 1) position with happend | happend
    · rw [Sql.bind_of_ok happend]
      exact changed_by_event (by exact rfl) (grows_of_made (.bind
        (made_auditAppend permits_grows.toPermits) fun _ =>
        made_requireCase permits_grows.refl) ⟨_, Sql.failAt position⟩)
    · rw [Sql.bind_of_error happend] at hmet
      exact (hleft _ hmet).elim

/-! ## `setStatus` -/

/-- The program throws nothing but the fault that it meets. -/
def ThrowsFault {α : Type} (x : CaseM α) (w : Work CaseDb) : Prop :=
  ∀ e w', x w = (.error e, w') → w'.faults = []

theorem ThrowsFault.next {α β : Type} {x : CaseM α} {f : α → CaseM β} {w w' : Work CaseDb} {a : α}
    (h : ThrowsFault (x >>= f) w) (hx : x w = (.ok a, w')) : ThrowsFault (f a) w' := by
  intro e w'' hf
  refine h e w'' ?_
  rw [Sql.bind_of_ok hx]
  exact hf

theorem ThrowsFault.first {α β : Type} {x : CaseM α} {f : α → CaseM β} {w : Work CaseDb}
    (h : ThrowsFault (x >>= f) w) : ThrowsFault x w :=
  fun e w' hx => h e w' (Sql.bind_of_error hx)

theorem ThrowsFault.absurd {x : CaseM α} {w : Work CaseDb} {e : Thrown} (h : ThrowsFault x w)
    (hx : x w = (.error e, ⟨db, Sql.failAt position⟩)) : False :=
  Sql.failAt_ne_nil position (h e _ hx)

theorem supersede_succ (db : CaseDb) (id : JsString) (now : UtcTime) (position : Nat) :
    (∃ db', Unchanged db db' ∧ supersede id now ⟨db, Sql.failAt (position + 1)⟩ =
        (.ok (), ⟨db', Sql.failAt position⟩)) ∨
      ∃ e, supersede id now ⟨db, Sql.failAt (position + 1)⟩ =
        (.error e, ⟨db, Sql.failAt position⟩) := by
  unfold supersede CaseM.attempt
  rw [Sql.step_failAt_succ]
  by_cases h : db.resolutions.any (·.id = id) = true
  · rw [if_pos h]
    refine .inl ⟨_, ?_, rfl⟩
    exact ⟨rfl, rfl, rfl, rfl, rfl⟩
  · rw [if_neg h]
    exact .inr ⟨_, rfl⟩

theorem insertResolution_succ (db : CaseDb) (row : ResolutionRow) (position : Nat) :
    (∃ db', Unchanged db db' ∧ insertResolution row ⟨db, Sql.failAt (position + 1)⟩ =
        (.ok (), ⟨db', Sql.failAt position⟩)) ∨
      ∃ e, insertResolution row ⟨db, Sql.failAt (position + 1)⟩ =
        (.error e, ⟨db, Sql.failAt position⟩) := by
  unfold insertResolution CaseM.attempt
  rw [Sql.step_failAt_succ]
  dsimp only
  split
  · split at *
    · exact .inr ⟨_, rfl⟩
    · cases ‹_›
  · split at *
    · cases ‹_›
    · cases ‹_›
      refine .inl ⟨_, ?_, rfl⟩
      exact ⟨rfl, rfl, rfl, rfl, rfl⟩

theorem appendDomainTimeline_failAt (hrow : db.cases caseId = some row)
    (h : ThrowsFault (appendDomainTimeline env caseId event now) ⟨db, Sql.failAt position⟩) :
    (position ≤ 1 ∧ ∃ e faults, appendDomainTimeline env caseId event now
        ⟨db, Sql.failAt position⟩ = (.error e, ⟨db, faults⟩)) ∨
      ∃ event' k, position = k + 2 ∧ appendDomainTimeline env caseId event now
        ⟨db, Sql.failAt position⟩ = (.ok (), ⟨db.appended caseId event' now, Sql.failAt k⟩) := by
  unfold appendDomainTimeline at h ⊢
  rcases ok_or_error (env.canonicalClientTime event.clientTime) with ⟨clientTime, hok⟩ | ⟨e, hthrow⟩
  case inr => exact (h.first.absurd (orError_error hthrow _)).elim
  have hsome := orError_ok hok ⟨db, Sql.failAt position⟩
  replace h := h.next hsome
  rw [Sql.bind_of_ok hsome]
  rcases position with _ | position
  · exact .inl ⟨by omega, _, _, rfl⟩
  replace h := h.next (requireCase_some hrow position)
  rw [Sql.bind_of_ok (requireCase_some hrow position)]
  rcases position with _ | position
  · exact .inl ⟨le_rfl, _, _, rfl⟩
  rcases appendTimeline_succ db caseId { event with clientTime } now position with happend | happend
  · exact .inr ⟨_, position, rfl, happend⟩
  · exact (h.absurd happend).elim

variable {call : StatusCall}

theorem withdrawResolution_failAt {previousStatus : CaseStatus}
    (hprevious : statusRequiresResolution previousStatus = true)
    (h : ThrowsFault (withdrawResolution stamp call previousStatus) ⟨db, Sql.failAt position⟩) :
    Unchanged db (withdrawResolution stamp call previousStatus ⟨db, Sql.failAt position⟩).2.db ↔
      ((db.activeResolution call.caseId).isSome = true → position ≤ 2) := by
  unfold withdrawResolution at h ⊢
  rw [if_pos hprevious] at h ⊢
  rcases position with _ | position
  · exact iff_of_true (Unchanged.refl db) fun _ => by omega
  have hactive : activeForCase call.caseId ⟨db, Sql.failAt (position + 1)⟩ =
      (.ok (db.activeResolution call.caseId), ⟨db, Sql.failAt position⟩) := rfl
  rw [Sql.bind_of_ok hactive]
  replace h := h.next hactive
  rcases Option.eq_none_or_eq_some (db.activeResolution call.caseId) with hnone | ⟨active, hsome⟩
  · rw [hnone]
    exact iff_of_true (Unchanged.refl db) fun h => by cases h
  rw [hsome] at h ⊢
  rcases position with _ | position
  · exact iff_of_true (Unchanged.refl db) fun _ => by omega
  rcases supersede_succ db active.id (stamp.now 0) position with ⟨db₁, hsame, hok⟩ | ⟨e, hthrow⟩
  case inr => exact (h.first.absurd hthrow).elim
  rw [Sql.forSome_some, Sql.bind_of_ok hok]
  rcases position with _ | position
  · exact iff_of_true hsame fun _ => le_rfl
  · refine iff_of_false (changed_by_record hsame.audit (permits_grows.refl _)) fun h => ?_
    have := h rfl
    omega

/-- A resolution is recorded: the event is the third statement from the insertion on. -/
theorem recordEvent_failAt {caseRow : CaseRow} {row : ResolutionRow} {record : AuditRecord}
    (hrow : db.cases caseId = some caseRow) (hsame : Unchanged db db₁)
    (h : ThrowsFault (do
      insertResolution row
      appendDomainTimeline env caseId event now
      auditAppend record) ⟨db₁, Sql.failAt position⟩) :
    Unchanged db ((do
      insertResolution row
      appendDomainTimeline env caseId event now
      auditAppend record : CaseM Unit) ⟨db₁, Sql.failAt position⟩).2.db ↔ position ≤ 2 := by
  rcases position with _ | position
  · exact iff_of_true hsame (by omega)
  rcases insertResolution_succ db₁ row position with ⟨db₂, hsame₂, hok⟩ | ⟨e, hthrow⟩
  case inr => exact (h.first.absurd hthrow).elim
  replace h := h.next hok
  rw [Sql.bind_of_ok hok]
  have hrow₂ : db₂.cases caseId = some caseRow := by
    rw [(hsame.trans hsame₂).cases]
    exact hrow
  rcases appendDomainTimeline_failAt hrow₂ h.first with ⟨hle, e, faults, hthrow⟩ | ⟨event', k, hk, hok⟩
  · rw [Sql.bind_of_error hthrow]
    exact iff_of_true (hsame.trans hsame₂) (by omega)
  · rw [Sql.bind_of_ok hok]
    refine iff_of_false ?_ (by omega)
    exact changed_by_event (hsame.trans hsame₂).timeline
      (grows_of_made (made_auditAppend permits_grows.toPermits) ⟨_, Sql.failAt k⟩)

theorem recordResolution_failAt {caseRow : CaseRow} {input : ResolutionInput}
    (hrow : db.cases caseId = some caseRow)
    (h : ThrowsFault (recordResolution env stamp caseId actor input origin)
      ⟨db, Sql.failAt position⟩) :
    Unchanged db (recordResolution env stamp caseId actor input origin
        ⟨db, Sql.failAt position⟩).2.db ↔
      position ≤ 3 + if (db.activeResolution caseId).isSome then 1 else 0 := by
  unfold recordResolution at h ⊢
  rcases ok_or_error (env.readResolution (stamp.now 0) input.content) with ⟨content, hok⟩ | ⟨e, hthrow⟩
  case inr => exact (h.first.absurd (orError_error hthrow _)).elim
  have hcontent := orError_ok hok ⟨db, Sql.failAt position⟩
  replace h := h.next hcontent
  rw [Sql.bind_of_ok hcontent]
  rcases position with _ | position
  · exact iff_of_true (Unchanged.refl db) (Nat.zero_le _)
  have hactive : activeForCase caseId ⟨db, Sql.failAt (position + 1)⟩ =
      (.ok (db.activeResolution caseId), ⟨db, Sql.failAt position⟩) := rfl
  replace h := h.next hactive
  rw [Sql.bind_of_ok hactive]
  dsimp only at h ⊢
  by_cases hexpected : ∀ expected ∈ input.expectedRevision,
      expected = ((((db.activeResolution caseId).map (·.revision)).getD 0 : Nat) : Rat)
  case neg => exact (h.first.absurd (Sql.demand_not hexpected _ _)).elim
  replace h := h.next (Sql.demand_of hexpected _ _)
  rw [Sql.bind_of_ok (Sql.demand_of hexpected _ _)]
  rcases Option.eq_none_or_eq_some (db.activeResolution caseId) with hnone | ⟨active, hsome⟩
  · rw [hnone] at h ⊢
    have hskip : Sql.forSome none (fun active : ResolutionRow => supersede active.id (stamp.now 1))
      ⟨db, Sql.failAt position⟩ = (.ok (), ⟨db, Sql.failAt position⟩) := rfl
    replace h := h.next hskip
    rw [Sql.bind_of_ok hskip, recordEvent_failAt hrow (Unchanged.refl db) h]
    show position ≤ 2 ↔ position + 1 ≤ 3
    omega
  · rw [hsome] at h ⊢
    rw [Sql.forSome_some] at h ⊢
    rcases position with _ | position
    · exact iff_of_true (Unchanged.refl db) (by simp)
    rcases supersede_succ db active.id (stamp.now 1) position with ⟨db₁, hsame, hok⟩ | ⟨e, hthrow⟩
    case inr => exact (h.first.absurd hthrow).elim
    replace h := h.next hok
    rw [Sql.bind_of_ok hok, recordEvent_failAt hrow hsame h]
    show position ≤ 2 ↔ position + 1 + 1 ≤ 4
    omega

theorem confirmResolution_failAt
    (h : ThrowsFault (confirmResolution call) ⟨db, Sql.failAt position⟩) :
    Unchanged db (confirmResolution call ⟨db, Sql.failAt position⟩).2.db := by
  unfold confirmResolution at h ⊢
  rcases position with _ | position
  · exact Unchanged.refl db
  have hactive : activeForCase call.caseId ⟨db, Sql.failAt (position + 1)⟩ =
      (.ok (db.activeResolution call.caseId), ⟨db, Sql.failAt position⟩) := rfl
  replace h := h.next hactive
  rw [Sql.bind_of_ok hactive]
  rcases Option.eq_none_or_eq_some (db.activeResolution call.caseId) with hnone | ⟨active, hsome⟩
  · rw [hnone] at h ⊢
    dsimp only at h ⊢
    rcases position with _ | position
    · exact Unchanged.refl db
    -- without an active resolution the call is denied, which is no fault
    exact (h.absurd (Sql.bind_of_ok rfl)).elim
  · rw [hsome]
    exact Unchanged.refl db

theorem authorizeStatus_failAt (hguard : env.resolutionGuard = true)
    (hrow : db.cases call.caseId = some row)
    (hlifecycle : isLifecycleTransition row.status call.status = false)
    (h : ThrowsFault (authorizeStatus env stamp call row.status) ⟨db, Sql.failAt position⟩) :
    Unchanged db (authorizeStatus env stamp call row.status ⟨db, Sql.failAt position⟩).2.db ↔
      ∀ record ∈ guardRecord env db call, position + 1 ≤ record := by
  unfold guardRecord
  rw [hrow]
  dsimp only
  rw [hguard, hlifecycle, if_neg (by decide)]
  unfold authorizeStatus at h ⊢
  by_cases hrequires : statusRequiresResolution call.status = false
  · rw [if_pos hrequires] at h ⊢
    rw [if_pos hrequires]
    by_cases hprevious : statusRequiresResolution row.status = true
    · rw [withdrawResolution_failAt hprevious h]
      by_cases hactive : (db.activeResolution call.caseId).isSome = true
      · simp only [hactive, hprevious, if_true, and_self, Option.mem_def, Option.some.injEq,
          forall_eq', true_implies]
        omega
      · simp [hactive]
    · unfold withdrawResolution
      rw [if_neg hprevious, if_neg (fun h => hprevious h.1)]
      exact iff_of_true (Unchanged.refl db) (by simp)
  · rw [if_neg hrequires] at h ⊢
    rw [if_neg hrequires]
    rcases Option.eq_none_or_eq_some call.options.resolution with hnone | ⟨supplied, hsome⟩
    · rw [hnone] at h ⊢
      exact iff_of_true (confirmResolution_failAt h) (by simp)
    · rw [hsome] at h ⊢
      dsimp only at h ⊢
      rw [recordResolution_failAt hrow h]
      simp only [Option.isSome_some, if_true, Option.mem_def, Option.some.injEq, forall_eq']
      omega

theorem previewStatus_failAt
    (h : ThrowsFault (previewStatus env stamp call) ⟨db, Sql.failAt position⟩) :
    Unchanged db (previewStatus env stamp call ⟨db, Sql.failAt position⟩).2.db ↔
      ∀ record ∈ guardRecord env db call, position ≤ record := by
  unfold previewStatus at h ⊢
  rcases ok_or_error (env.canonicalClientTime call.options.clientTime) with
    ⟨clientTime, htime⟩ | ⟨e, htime⟩
  case inr => exact (h.first.absurd (orError_error htime _)).elim
  replace h := h.next (orError_ok htime _)
  rw [Sql.bind_of_ok (orError_ok htime _)]
  by_cases hguard : env.resolutionGuard = true
  case neg =>
    rw [if_neg hguard]
    refine iff_of_true (Unchanged.refl db) fun record hrecord => ?_
    unfold guardRecord at hrecord
    split at hrecord
    · cases hrecord
    · rw [if_pos (.inl (Bool.not_eq_true _ ▸ hguard))] at hrecord
      cases hrecord
  rw [if_pos hguard] at h ⊢
  rcases position with _ | position
  · exact iff_of_true (Unchanged.refl db) fun _ _ => Nat.zero_le _
  rcases Option.eq_none_or_eq_some (db.cases call.caseId) with hrow | ⟨row, hrow⟩
  · exact (h.first.absurd (requireCase_none hrow position)).elim
  replace h := h.next (requireCase_some hrow position)
  rw [Sql.bind_of_ok (requireCase_some hrow position)]
  by_cases hlifecycle : isLifecycleTransition row.status call.status = true
  · rw [if_pos hlifecycle]
    refine iff_of_true (Unchanged.refl db) fun record hrecord => ?_
    unfold guardRecord at hrecord
    rw [hrow] at hrecord
    dsimp only at hrecord
    rw [if_pos (.inr hlifecycle)] at hrecord
    cases hrecord
  · rw [if_neg hlifecycle] at h ⊢
    rw [← authorizeStatus_failAt hguard hrow (Bool.not_eq_true _ ▸ hlifecycle) h.first]
    have hwork := Sql.bind_pure_work (authorizeStatus env stamp call row.status)
      (fun _ => (⟨clientTime, some row.status, false⟩ : StatusPreview)) ⟨db, Sql.failAt position⟩
    rw [← hwork]

theorem undoes_changeStatus (now : UtcTime) (call : StatusCall) (preview : StatusPreview) :
    Sql.Undoes (changeStatus env now call preview) := Sql.undoes_atomic _

theorem setStatus_failAt
    (hmet : (setStatus env stamp call ⟨db, Sql.failAt position⟩).2.faults = []) :
    Unchanged db (setStatus env stamp call ⟨db, Sql.failAt position⟩).2.db ↔
      ∀ record ∈ guardRecord env db call, position ≤ record := by
  have hthrows := Sql.throws_of_reports (made_setStatus permits_true).reports hmet
  rcases Sql.bind_cases (previewStatus env stamp call) (changeStatus env (stamp.now 3) call)
    ⟨db, Sql.failAt position⟩ with ⟨preview, w', hpreview, hbind⟩ | ⟨e, w', hpreview, hbind⟩
  · have hfault : ThrowsFault (previewStatus env stamp call) ⟨db, Sql.failAt position⟩ := by
      intro e w'' h
      rw [hpreview] at h
      cases h
    have hundone : (setStatus env stamp call ⟨db, Sql.failAt position⟩).2.db = w'.db := by
      unfold setStatus at hthrows ⊢
      rw [hbind] at hthrows ⊢
      exact undoes_changeStatus _ _ _ _ _ _ (Prod.ext hthrows rfl)
    rw [hundone, ← previewStatus_failAt hfault, hpreview]
  · have hfault : ThrowsFault (previewStatus env stamp call) ⟨db, Sql.failAt position⟩ := by
      intro e w'' h
      rw [hpreview] at h
      cases h
      unfold setStatus at hmet
      rw [hbind] at hmet
      exact hmet
    rw [← previewStatus_failAt hfault, hpreview]
    unfold setStatus
    rw [hbind]

/-- A call that meets its fault throws, and it leaves no trace exactly when `HoldsWhen` says so. -/
theorem caseCall_all_or_nothing (env : CaseEnv) (stamp : Stamp) (db : CaseDb) (call : CaseCall)
    (position : Nat)
    (hmet : (runCall env stamp call ⟨db, Sql.failAt position⟩).2.faults = []) :
    ((∃ e, (runCall env stamp call ⟨db, Sql.failAt position⟩).1 = .error e) ∧
        Unchanged db (runCall env stamp call ⟨db, Sql.failAt position⟩).2.db) ↔
      call.HoldsWhen env stamp db position := by
  have hthrows := Sql.throws_of_reports (reports_runCall call) hmet
  rw [and_iff_right ⟨_, hthrows⟩]
  by_cases htransactional : call.Transactional
  · have hundone := undoes_runCall htransactional ⟨db, Sql.failAt position⟩ _ _
      (Prod.ext hthrows rfl)
    rw [hundone]
    refine iff_of_true (Unchanged.refl db) ?_
    cases call <;> first | exact htransactional.elim | trivial
  · cases call with
    | setOccurredAt caseId actor input origin clientTime =>
      dsimp only [runCall] at hmet ⊢
      rw [Sql.void_db] at hmet ⊢
      exact setOccurredAt_failAt hmet
    | setStatus call =>
      dsimp only [runCall] at hmet ⊢
      rw [Sql.void_db] at hmet ⊢
      exact setStatus_failAt hmet
    | _ => exact (htransactional trivial).elim

def oneCase : CaseDb where
  cases id := if id = [1] then
      some ⟨[], blankRow, ⟨none, .unknown, .unspecified⟩, .medium, .open, false, "standard",
        noon.toISOString, [7], [7], [⟨[7], [7]⟩]⟩
    else none

/-- The event of a legal hold is not appended, and the hold is taken back. -/
theorem caseCall_all_or_nothing_hold :
    (∃ e, (runCall plainEnv noonStamp (.setLegalHold [1] ⟨[7], [7]⟩ true [])
        ⟨oneCase, Sql.failAt 2⟩).1 = .error e) ∧
      Unchanged oneCase (runCall plainEnv noonStamp (.setLegalHold [1] ⟨[7], [7]⟩ true [])
        ⟨oneCase, Sql.failAt 2⟩).2.db :=
  (caseCall_all_or_nothing plainEnv noonStamp oneCase (.setLegalHold [1] ⟨[7], [7]⟩ true []) 2
    rfl).mpr trivial

def backfill : CaseCall :=
  .setOccurredAt [1] ⟨[7], [7]⟩ { occurredAt := some (jsText "2024-05-01") } [] none

/-- The event of a backfill is not appended, and the occurrence is written. -/
theorem setOccurredAt_half_recorded :
    (runCall plainEnv noonStamp backfill ⟨oneCase, Sql.failAt 2⟩).2.faults = [] ∧
      ¬ ((∃ e, (runCall plainEnv noonStamp backfill ⟨oneCase, Sql.failAt 2⟩).1 = .error e) ∧
        Unchanged oneCase (runCall plainEnv noonStamp backfill ⟨oneCase, Sql.failAt 2⟩).2.db) := by
  refine ⟨rfl, fun h => ?_⟩
  have hcase := congrArg (Option.map (·.occurrence)) (congrFun h.2.cases [1])
  exact absurd hcase (by decide)

end ContextDesk
