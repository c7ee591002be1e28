import ContextDesk.Cases.Coordinate

/-!
# Runs that archive and restore

What any order of moves does to the status of a case and to where a restore of it lands. The history
agrees with the row: the restore target of a case that is not archived is its status, and nothing
that happens to an archived case moves the target.
-/

namespace ContextDesk

open Lib

def CaseDb.statusOf (db : CaseDb) (caseId : JsString) : Option CaseStatus :=
  (db.cases caseId).map (·.status)

def CaseDb.heldOf (db : CaseDb) (caseId : JsString) : Option Bool :=
  (db.cases caseId).map (·.legalHold)

def CaseDb.restoreTargetOf (db : CaseDb) (env : CaseEnv) (caseId : JsString) : CaseStatus :=
  restoreTarget env.date (statusHistory (db.timeline caseId))

/-- No sequence is beyond the length of the timeline. -/
structure Numbered (rows : List TimelineRow) : Prop where
  length : rows.length ≤ ARRAY_MAX_LENGTH
  seq : ∀ row ∈ rows, row.seq ≤ rows.length

variable {rows : List TimelineRow}

theorem Numbered.append (h : Numbered rows) (hroom : rows.length < ARRAY_MAX_LENGTH)
    (event : TimelineInsert) (now : UtcTime) : Numbered (rows ++ [timelineRow rows event now]) := by
  have hlength : (rows ++ [timelineRow rows event now]).length = rows.length + 1 :=
    List.length_append
  constructor
  · omega
  · intro row hrow
    rcases List.mem_append.mp hrow with hrow | hrow
    · have := h.seq row hrow
      omega
    · rw [List.mem_singleton.mp hrow, hlength]
      exact le_rfl

theorem timeline_appended (db : CaseDb) (id caseId : JsString) (event : TimelineInsert)
    (now : UtcTime) :
    (db.appended id event now).timeline caseId =
      if caseId = id then db.timeline id ++ [timelineRow (db.timeline id) event now]
      else db.timeline caseId := by
  simp only [CaseDb.appended, Function.update_apply]

theorem statusOf_setCase_self (db : CaseDb) (caseId : JsString) (row : CaseRow) :
    (db.setCase caseId row).statusOf caseId = some row.status := by
  simp only [CaseDb.statusOf, CaseDb.setCase, Function.update_self, Option.map_some]

variable {id : JsString}

theorem cases_setCase_of_ne (db : CaseDb) {caseId : JsString} (hne : caseId ≠ id) (row : CaseRow) :
    (db.setCase id row).cases caseId = db.cases caseId :=
  Function.update_of_ne hne _ _

/-! ## The history -/

theorem statusHistory_append (rows : List TimelineRow) (row : TimelineRow) :
    statusHistory (rows ++ [row]) = statusHistory rows ++ (historyEntry row).toList := by
  rw [statusHistory, List.filterMap_append]
  cases hrow : historyEntry row with
  | none => rw [List.filterMap_cons_none hrow]; rfl
  | some entry => rw [List.filterMap_cons_some hrow]; rfl

variable {now : UtcTime}

theorem historyEntry_other {event : TimelineInsert} (hkind : event.kind ≠ "case_status") :
    historyEntry (timelineRow rows event now) = none :=
  if_pos hkind

variable {status : CaseStatus}

theorem historyEntry_status {event : TimelineInsert} (hkind : event.kind = "case_status")
    (hpayload : event.payload = .object [("status", jsText status.text)]) :
    historyEntry (timelineRow rows event now) =
      some ⟨JsString.ofString status.text, rows.length + 1, now.toISOString⟩ := by
  have hkept : ¬ (timelineRow rows event now).kind ≠ "case_status" := not_not.mpr hkind
  rw [historyEntry, if_neg hkept]
  simp only [timelineRow, hpayload]
  rfl

theorem recordedSequence_le (h : Numbered rows) {entry : StatusHistoryEntry}
    (hentry : entry ∈ statusHistory rows) : entry.recordedSequence ≤ rows.length := by
  obtain ⟨row, hrow, hentry⟩ := List.mem_filterMap.mp hentry
  have hseq : entry.recordedSequence = row.seq := by
    unfold historyEntry at hentry
    split at hentry
    · cases hentry
    · split at hentry
      · split at hentry
        · cases hentry
          rfl
        · cases hentry
      · cases hentry
  rw [hseq]
  exact h.seq row hrow

/-! ## What leaves the status alone -/

/-- The status and its history stay, and the timeline stays numbered. -/
def StatusKept (caseId : JsString) (db db' : CaseDb) : Prop :=
  Numbered (db.timeline caseId) → Numbered (db'.timeline caseId) ∧
    db'.statusOf caseId = db.statusOf caseId ∧
    statusHistory (db'.timeline caseId) = statusHistory (db.timeline caseId)

theorem statusKept_of_eq {caseId : JsString} {db db' : CaseDb}
    (hcases : db'.cases caseId = db.cases caseId)
    (htimeline : db'.timeline caseId = db.timeline caseId) : StatusKept caseId db db' := by
  intro hnumbered
  rw [htimeline, CaseDb.statusOf, hcases]
  exact ⟨hnumbered, rfl, rfl⟩

theorem statusKept_of_db {caseId : JsString} {db db' : CaseDb} (h : db' = db) :
    StatusKept caseId db db' := by
  rw [h]
  exact statusKept_of_eq rfl rfl

theorem StatusKept.trans {caseId : JsString} {a b c : CaseDb} (hab : StatusKept caseId a b)
    (hbc : StatusKept caseId b c) : StatusKept caseId a c := by
  intro hnumbered
  obtain ⟨hb, hstatus, hhistory⟩ := hab hnumbered
  obtain ⟨hc, hstatus', hhistory'⟩ := hbc hb
  exact ⟨hc, hstatus'.trans hstatus, hhistory'.trans hhistory⟩

theorem permits_statusKept (caseId : JsString) : Permits (StatusKept caseId) where
  refl _ := statusKept_of_eq rfl rfl
  trans _ _ _ := StatusKept.trans
  row db id row row' hrow hstatus _ := by
    intro hnumbered
    refine ⟨hnumbered, ?_, rfl⟩
    by_cases hid : caseId = id
    · subst hid
      rw [statusOf_setCase_self, CaseDb.statusOf, hrow, hstatus]
      rfl
    · rw [CaseDb.statusOf, cases_setCase_of_ne db hid, CaseDb.statusOf]
  timeline db id event now hkind hroom := by
    intro hnumbered
    by_cases hid : caseId = id
    · subst hid
      rw [timeline_appended, if_pos rfl, statusHistory_append, historyEntry_other hkind]
      exact ⟨hnumbered.append hroom event now, rfl, List.append_nil _⟩
    · rw [timeline_appended, if_neg hid]
      exact ⟨hnumbered, rfl, rfl⟩
  record _ _ := statusKept_of_eq rfl rfl
  revised _ _ := statusKept_of_eq rfl rfl
  snapshots _ _ := statusKept_of_eq rfl rfl
  resolutions _ _ := statusKept_of_eq rfl rfl

theorem keeps_status {caseId : JsString} {α : Type} {x : CaseM α}
    (hx : Sql.Made .failed (StatusKept caseId) x) : Sql.Keeps (StatusKept caseId) x :=
  hx.keeps (permits_statusKept caseId).refl (permits_statusKept caseId).trans

/-! ## A status that is written -/

variable {actor : Actor} {clientTime : Option JsString} {origin : JsString} {result : CaseRow}

theorem writeStatus_ok {w w' : Work CaseDb}
    (h : writeStatus now id actor status clientTime origin w = (.ok result, w')) :
    ∃ row event record,
      w'.db = ((w.db.setCase id { row with status }).appended id event now).record record ∧
      w.db.cases id = some row ∧ (w.db.timeline id).length < ARRAY_MAX_LENGTH ∧
      event.kind = "case_status" ∧ event.payload = .object [("status", jsText status.text)] := by
  obtain ⟨_, w₁, hrow, h⟩ := Sql.bind_ok.mp h
  obtain ⟨_, w₂, hevent, h⟩ := Sql.bind_ok.mp h
  obtain ⟨_, w₃, hrecord, h⟩ := Sql.bind_ok.mp h
  obtain ⟨row, hfound, h₁⟩ := updateCase_ok hrow
  obtain ⟨hroom, h₂⟩ := appendTimeline_ok hevent
  rw [h₁] at hroom h₂
  have hdb := (requireCase_ok h).2
  rw [write_ok hrecord, h₂] at hdb
  exact ⟨row, _, _, hdb, hfound, hroom, rfl, rfl⟩

/-- The status of the case is written, and an event after all the others that says so. -/
structure StatusWritten (caseId : JsString) (status : CaseStatus) (db db' : CaseDb) : Prop where
  numbered : Numbered (db'.timeline caseId)
  written : db'.statusOf caseId = some status
  history : ∃ (n : Nat) (now : UtcTime), n < ARRAY_MAX_LENGTH ∧
    (∀ entry ∈ statusHistory (db.timeline caseId), entry.recordedSequence ≤ n) ∧
    statusHistory (db'.timeline caseId) = statusHistory (db.timeline caseId) ++
      [⟨JsString.ofString status.text, n + 1, now.toISOString⟩]

variable {env : CaseEnv} {caseId : JsString} {db db' : CaseDb} {w w' : Work CaseDb}

theorem writeStatus_written (hnumbered : Numbered (w.db.timeline caseId))
    (h : writeStatus now caseId actor status clientTime origin w = (.ok result, w')) :
    StatusWritten caseId status w.db w'.db := by
  obtain ⟨row, event, record, hdb, hrow, hroom, hkind, hpayload⟩ := writeStatus_ok h
  have htimeline : w'.db.timeline caseId =
      w.db.timeline caseId ++ [timelineRow (w.db.timeline caseId) event now] := by
    rw [hdb]
    exact (timeline_appended _ caseId caseId event now).trans (if_pos rfl)
  refine ⟨?_, ?_, _, now, hroom, fun entry => recordedSequence_le hnumbered, ?_⟩
  · rw [htimeline]
    exact hnumbered.append hroom event now
  · rw [hdb]
    exact statusOf_setCase_self w.db caseId _
  · rw [htimeline, statusHistory_append, historyEntry_status hkind hpayload]
    rfl

theorem writeStatus_other (hne : caseId ≠ id)
    (h : writeStatus now id actor status clientTime origin w = (.ok result, w')) :
    StatusKept caseId w.db w'.db := by
  obtain ⟨row, event, record, hdb, -⟩ := writeStatus_ok h
  rw [hdb]
  refine statusKept_of_eq (cases_setCase_of_ne w.db hne _) ?_
  exact (timeline_appended _ id caseId event now).trans (if_neg hne)

/-- A restore lands on a working status. -/
theorem restoreTarget_working (date : DateParser) (history : List StatusHistoryEntry) :
    restoreTarget date history ≠ ARCHIVED_STATUS := by
  have hrecorded : ∀ entry status, recordedStatus date entry = some status →
      status ≠ ARCHIVED_STATUS := by
    rintro entry status h rfl
    unfold recordedStatus at h
    split at h
    · cases h
    · rename_i hne
      split at h
      · cases h
      · rename_i found hfound
        have htext := List.find?_some hfound
        simp only [decide_eq_true_eq] at htext
        split at h
        · cases h
        · split at h
          · cases h
          · rw [Option.some.inj h] at htext
            exact hne htext.symm
  have hbest : ∀ best, history.foldl (restoreStep date) none = some best →
      best.1 ≠ ARCHIVED_STATUS := by
    induction history using List.reverseRecOn with
    | nil =>
      intro best h
      cases h
    | append_singleton history entry ih =>
      intro best h
      rw [List.foldl_append, List.foldl_cons, List.foldl_nil] at h
      unfold restoreStep at h
      split at h
      · exact ih best h
      · rename_i status hstatus
        split at h
        · cases h
          exact hrecorded entry status hstatus
        · exact ih best h
  unfold restoreTarget
  split
  · decide
  · rename_i best h
    exact hbest best h

theorem StatusWritten.target_working (h : StatusWritten caseId status db db')
    (hworking : status ≠ ARCHIVED_STATUS) : db'.restoreTargetOf env caseId = status := by
  obtain ⟨n, now, hroom, hle, hhistory⟩ := h.history
  have hsafe : ((n + 1 : Nat) : Int) ≤ MAX_SAFE_INTEGER := by
    simp only [ARRAY_MAX_LENGTH] at hroom
    simp only [MAX_SAFE_INTEGER]
    omega
  rw [CaseDb.restoreTargetOf, hhistory]
  refine restoreTarget_last (recordedStatus_of_working hworking (by omega) hsafe) ?_
  intro entry hentry
  exact Nat.lt_succ_of_le (hle entry hentry)

theorem StatusWritten.target_archived (h : StatusWritten caseId ARCHIVED_STATUS db db') :
    db'.restoreTargetOf env caseId = db.restoreTargetOf env caseId := by
  obtain ⟨n, now, -, -, hhistory⟩ := h.history
  rw [CaseDb.restoreTargetOf, hhistory]
  exact restoreTarget_skip recordedStatus_archived

theorem StatusKept.written {db₁ : CaseDb} (h : StatusKept caseId db db₁)
    (hnumbered : Numbered (db.timeline caseId)) (hwritten : StatusWritten caseId status db₁ db') :
    StatusWritten caseId status db db' := by
  obtain ⟨-, -, hhistory⟩ := h hnumbered
  have hlast := hwritten.history
  rw [hhistory] at hlast
  exact ⟨hwritten.numbered, hwritten.written, hlast⟩

theorem StatusKept.target (h : StatusKept caseId db db')
    (hnumbered : Numbered (db.timeline caseId)) :
    db'.restoreTargetOf env caseId = db.restoreTargetOf env caseId := by
  rw [CaseDb.restoreTargetOf, (h hnumbered).2.2]
  rfl

/-! ## The two transactions that write a status -/

def StatusChanged (caseId : JsString) (db db' : CaseDb) : Prop :=
  ∃ «from» «to», db.statusOf caseId = some «from» ∧ «from» ≠ ARCHIVED_STATUS ∧
    «to» ≠ ARCHIVED_STATUS ∧ StatusWritten caseId «to» db db'

theorem changeStatus_effect {call : StatusCall} {preview : StatusPreview}
    {r : Except Thrown CaseRow} (hnumbered : Numbered (w.db.timeline caseId))
    (h : changeStatus env now call preview w = (r, w')) :
    StatusKept caseId w.db w'.db ∨ StatusChanged caseId w.db w'.db := by
  rcases Sql.atomic_result h with ⟨result, -, h⟩ | ⟨-, hdb⟩
  · obtain ⟨row, w₁, hrow, h⟩ := Sql.bind_ok.mp h
    obtain ⟨_, _, htransition, h⟩ := Sql.bind_ok.mp h
    obtain ⟨_, _, hguard, h⟩ := Sql.bind_ok.mp h
    obtain ⟨_, _, hpreview, h⟩ := Sql.bind_ok.mp h
    obtain ⟨hfound, hsame⟩ := requireLocked_ok hrow
    obtain ⟨hgeneric, rfl⟩ := Sql.demand_ok.mp htransition
    obtain ⟨-, rfl⟩ := Sql.demand_ok.mp hguard
    obtain ⟨-, rfl⟩ := Sql.demand_ok.mp hpreview
    rw [← hsame] at hnumbered hfound ⊢
    by_cases hid : caseId = call.caseId
    · subst hid
      simp only [isLifecycleTransition, decide_eq_false_iff_not, not_or] at hgeneric
      refine .inr ⟨row.status, call.status, ?_, hgeneric.2, hgeneric.1,
        writeStatus_written hnumbered h⟩
      rw [CaseDb.statusOf, hfound]
      rfl
    · exact .inl (writeStatus_other hid h)
  · exact .inl (statusKept_of_db hdb)

variable {row : CaseRow}

theorem target_archive
    (h : ((lifecycleOf env id row rows).verdict .archive).target id = .ok status) :
    row.legalHold = false ∧ row.status ≠ ARCHIVED_STATUS ∧ status = ARCHIVED_STATUS := by
  simp only [InvestigationLifecycleV1.verdict, lifecycleOf, evaluateArchive] at h
  split at h
  · cases h
  · rename_i hheld
    split at h
    · cases h
    · rename_i hworking
      cases h
      exact ⟨Bool.eq_false_iff.mpr hheld, hworking, rfl⟩

theorem target_restore
    (h : ((lifecycleOf env id row rows).verdict .restore).target id = .ok status) :
    row.status = ARCHIVED_STATUS ∧ status = restoreTarget env.date (statusHistory rows) := by
  simp only [InvestigationLifecycleV1.verdict, lifecycleOf, evaluateRestore] at h
  split at h
  · cases h
  · rename_i harchived
    cases h
    exact ⟨not_not.mp harchived, rfl⟩

variable {stamp : Stamp} {request : InvestigationLifecycleActionRequestV1}

/-- What a lifecycle action that succeeds has read and written. -/
theorem applyLifecycleAction_ok {result : InvestigationLifecycleActionSuccessV1}
    (h : applyLifecycleAction env stamp request actor origin w = (.ok result, w')) :
    ∃ row status w₁ updated clientTime,
      w.db.cases request.investigationId = some row ∧
      request.expected = ⟨row.status, row.legalHold,
        w.db.restoreTargetOf env request.investigationId⟩ ∧
      ((lifecycleOf env request.investigationId row
        (w.db.timeline request.investigationId)).verdict request.action).target
          request.investigationId = .ok status ∧
      (∀ caseId, StatusKept caseId w.db w₁.db) ∧
      writeStatus (stamp.now 3) request.investigationId actor status clientTime origin w₁ =
        (.ok updated, w') := by
  obtain ⟨clientTime, _, hlift, h⟩ := Sql.bind_ok.mp h
  obtain ⟨-, rfl⟩ := Sql.lift_ok.mp hlift
  obtain ⟨row, w₁, hrow, h⟩ := Sql.bind_ok.mp (Sql.atomic_ok h)
  obtain ⟨rows, w₂, hrows, h⟩ := Sql.bind_ok.mp h
  obtain ⟨hfound, h₁⟩ := requireLocked_ok hrow
  obtain ⟨rfl, h₂⟩ := select_ok hrows
  obtain ⟨_, _, hdemand, h⟩ := Sql.bind_ok.mp h
  obtain ⟨hexpected, rfl⟩ := Sql.demand_ok.mp hdemand
  obtain ⟨status, _, hverdict, h⟩ := Sql.bind_ok.mp h
  obtain ⟨htarget, rfl⟩ := Sql.lift_ok.mp hverdict
  obtain ⟨_, w₃, hauthorized, h⟩ := Sql.bind_ok.mp h
  obtain ⟨updated, w₄, hwritten, h⟩ := Sql.bind_ok.mp h
  obtain ⟨-, rfl⟩ := Sql.pure_ok.mp h
  rw [h₁] at hexpected htarget h₂
  refine ⟨row, status, w₃, updated, clientTime, hfound, hexpected, htarget, ?_, hwritten⟩
  intro caseId
  have hkept := keeps_status (made_authorizeRestore (permits_statusKept caseId) :
    Sql.Made _ _ (authorizeRestore env stamp request actor origin status row.status)) w₂
  rwa [hauthorized, h₂] at hkept

/-! ## One move -/

/-- The move is a lifecycle action on the case, and it succeeds. -/
def ServiceAttempt.Succeeds (env : CaseEnv) (caseId : JsString) (action : LifecycleAction)
    (db : CaseDb) (a : ServiceAttempt) : Prop :=
  (∃ stamp request actor origin, a.move = .call stamp (.applyLifecycleAction request actor origin) ∧
    request.investigationId = caseId ∧ request.action = action) ∧ (a.result env db).1 = .ok ()

inductive StatusEffect (env : CaseEnv) (caseId : JsString) (db : CaseDb) (a : ServiceAttempt)
    (db' : CaseDb) : Prop
  | kept (h : StatusKept caseId db db')
  | changed (h : StatusChanged caseId db db')
  | acted {action : LifecycleAction} (h : a.Succeeds env caseId action db)

variable {a : ServiceAttempt}

theorem succeeds_written {action : LifecycleAction} (hnumbered : Numbered (db.timeline caseId))
    (h : a.Succeeds env caseId action db) :
    ∃ row status, db.cases caseId = some row ∧
      ((lifecycleOf env caseId row (db.timeline caseId)).verdict action).target caseId =
        .ok status ∧ StatusWritten caseId status db (serviceStep env db a) := by
  obtain ⟨move, faults⟩ := a
  obtain ⟨⟨stamp, request, actor, origin, rfl, rfl, rfl⟩, hok⟩ := h
  obtain ⟨result, hresult⟩ := Sql.void_ok
    (show Sql.void (applyLifecycleAction env stamp request actor origin) ⟨db, faults⟩ = (.ok (), _)
      from Prod.ext hok rfl)
  obtain ⟨row, status, w₁, updated, clientTime, hrow, -, htarget, hkept, hwritten⟩ :=
    applyLifecycleAction_ok hresult
  have hnumbered₁ := (hkept _ hnumbered).1
  exact ⟨row, status, hrow, htarget,
    (hkept _).written hnumbered (writeStatus_written hnumbered₁ hwritten)⟩

theorem archive_written (hnumbered : Numbered (db.timeline caseId))
    (h : a.Succeeds env caseId .archive db) :
    db.heldOf caseId = some false ∧ db.statusOf caseId ≠ some ARCHIVED_STATUS ∧
      StatusWritten caseId ARCHIVED_STATUS db (serviceStep env db a) := by
  obtain ⟨row, status, hrow, htarget, hwritten⟩ := succeeds_written hnumbered h
  obtain ⟨hheld, hworking, rfl⟩ := target_archive htarget
  rw [CaseDb.heldOf, CaseDb.statusOf, hrow, Option.map_some, Option.map_some, hheld]
  exact ⟨rfl, fun heq => hworking (Option.some.inj heq), hwritten⟩

theorem restore_written (hnumbered : Numbered (db.timeline caseId))
    (h : a.Succeeds env caseId .restore db) :
    db.statusOf caseId = some ARCHIVED_STATUS ∧
      StatusWritten caseId (db.restoreTargetOf env caseId) db (serviceStep env db a) := by
  obtain ⟨row, status, hrow, htarget, hwritten⟩ := succeeds_written hnumbered h
  obtain ⟨harchived, rfl⟩ := target_restore htarget
  rw [CaseDb.statusOf, hrow, Option.map_some, harchived]
  exact ⟨rfl, hwritten⟩

theorem setStatus_effect {call : StatusCall} (hnumbered : Numbered (w.db.timeline caseId)) :
    StatusKept caseId w.db (setStatus env stamp call w).2.db ∨
      StatusChanged caseId w.db (setStatus env stamp call w).2.db := by
  have hpreview := keeps_status
    (made_previewStatus (permits_statusKept caseId) :
      Sql.Made _ _ (previewStatus env stamp call)) w
  rcases Sql.bind_cases (previewStatus env stamp call) (changeStatus env (stamp.now 3) call) w with
    ⟨preview, w₁, hx, h⟩ | ⟨e, w₁, hx, h⟩
  · rw [hx] at hpreview
    rw [setStatus, h]
    have hnumbered₁ := (hpreview hnumbered).1
    rcases changeStatus_effect hnumbered₁ Prod.mk.eta.symm with hkept | ⟨old, new, hold, hold', hnew, hwritten⟩
    · exact .inl (hpreview.trans hkept)
    · refine .inr ⟨old, new, ?_, hold', hnew, hpreview.written hnumbered hwritten⟩
      rw [← (hpreview hnumbered).2.1, hold]
  · rw [hx] at hpreview
    rw [setStatus, h]
    exact .inl hpreview

theorem applyLifecycleAction_effect {faults : List Bool} :
    StatusEffect env caseId db ⟨.call stamp (.applyLifecycleAction request actor origin), faults⟩
      (applyLifecycleAction env stamp request actor origin ⟨db, faults⟩).2.db := by
  rcases Sql.void_cases (applyLifecycleAction env stamp request actor origin) ⟨db, faults⟩ with
    ⟨result, w', hresult, hvoid⟩ | ⟨e, w', hresult, -⟩
  · by_cases hid : caseId = request.investigationId
    · subst hid
      exact .acted ⟨⟨stamp, request, actor, origin, rfl, rfl, rfl⟩, congrArg Prod.fst hvoid⟩
    · obtain ⟨row, status, w₁, updated, clientTime, -, -, -, hkept, hwritten⟩ :=
        applyLifecycleAction_ok hresult
      rw [hresult]
      exact .kept ((hkept caseId).trans (writeStatus_other hid hwritten))
  · rw [hresult]
    exact .kept (statusKept_of_db (undoes_applyLifecycleAction _ _ _ _ _ _ _ _ hresult))

theorem serviceStep_effect (ha : a.On caseId) (hnumbered : Numbered (db.timeline caseId)) :
    StatusEffect env caseId db a (serviceStep env db a) := by
  have hR := permits_statusKept caseId
  obtain ⟨move, faults⟩ := a
  cases move with
  | statement statement =>
    refine .kept (keeps_status (made_runStatement hR fun _ event _ heq => ?_) ⟨db, faults⟩)
    rw [heq] at ha
    exact ha
  | coordinate stamp routeCaseId actor isAdmin input origin =>
    have hsame : ∀ db row, StatusKept caseId db (CaseDb.coordinated db row) :=
      fun _ _ => statusKept_of_eq rfl rfl
    have hmade : Sql.Made .failed (StatusKept caseId)
        (coordinateInvestigation env stamp routeCaseId actor isAdmin input origin) :=
      made_coordinateInvestigation hR hsame fun _ _ _ => statusKept_of_eq rfl rfl
    exact .kept (keeps_void hR.refl hR.trans hmade ⟨db, faults⟩)
  | changeStatus now call preview =>
    change StatusEffect env caseId db _ (Sql.void (changeStatus env now call preview) _).2.db
    rw [Sql.void_db]
    rcases changeStatus_effect (w := ⟨db, faults⟩) hnumbered Prod.mk.eta.symm with hkept | hchanged
    · exact .kept hkept
    · exact .changed hchanged
  | call stamp call =>
    by_cases hcall : call.WritesStatus
    · cases call with
      | setStatus call =>
        change StatusEffect env caseId db _ (Sql.void (setStatus env stamp call) _).2.db
        rw [Sql.void_db]
        rcases setStatus_effect (w := ⟨db, faults⟩) hnumbered with hkept | hchanged
        · exact .kept hkept
        · exact .changed hchanged
      | applyLifecycleAction request actor origin =>
        change StatusEffect env caseId db _
          (Sql.void (applyLifecycleAction env stamp request actor origin) _).2.db
        rw [Sql.void_db]
        exact applyLifecycleAction_effect
      | _ => exact hcall.elim
    · refine .kept (keeps_otherCall hR stamp hcall (fun actor input origin heq db row => ?_)
        ⟨db, faults⟩)
      subst heq
      have hne : caseId ≠ stamp.uuid := Ne.symm ha
      exact statusKept_of_eq (cases_setCase_of_ne db hne row) (Function.update_of_ne hne _ _)

/-! ## Runs -/

/-- The case was created and nothing else happened to it. -/
def Created (env : CaseEnv) (caseId : JsString) (db : CaseDb) : Prop :=
  ∃ stamp actor input origin row w w', stamp.uuid = caseId ∧
    createCase env stamp actor input origin w = (.ok row, w') ∧ w'.db = db

structure Agrees (env : CaseEnv) (caseId : JsString) (db : CaseDb) : Prop where
  numbered : Numbered (db.timeline caseId)
  target : ∃ status, db.statusOf caseId = some status ∧
    (status ≠ ARCHIVED_STATUS → db.restoreTargetOf env caseId = status)

theorem createCase_ok {input : CreateCaseInput}
    (h : createCase env stamp actor input origin w = (.ok row, w')) :
    ∃ event record,
      w'.db = (({ w.db.setCase stamp.uuid row with
        timeline := Function.update w.db.timeline stamp.uuid [] } : CaseDb).appended stamp.uuid event
          (stamp.now 2)).record record ∧
      row.status = .open ∧ event.kind = "case_created" := by
  obtain ⟨_, _, h₁, h⟩ := Sql.bind_ok.mp h
  obtain ⟨_, _, h₂, h⟩ := Sql.bind_ok.mp h
  obtain ⟨_, _, h₃, h⟩ := Sql.bind_ok.mp h
  obtain ⟨_, _, h₄, h⟩ := Sql.bind_ok.mp h
  obtain ⟨-, rfl⟩ := Sql.lift_ok.mp h₁
  obtain ⟨-, rfl⟩ := Sql.lift_ok.mp h₂
  obtain ⟨-, rfl⟩ := Sql.lift_ok.mp h₃
  obtain ⟨-, rfl⟩ := Sql.lift_ok.mp h₄
  obtain ⟨_, w₁, hinsert, h⟩ := Sql.bind_ok.mp (Sql.atomic_ok h)
  obtain ⟨_, w₂, hevent, h⟩ := Sql.bind_ok.mp h
  obtain ⟨_, w₃, hrecord, h⟩ := Sql.bind_ok.mp h
  obtain ⟨rfl, rfl⟩ := Sql.pure_ok.mp h
  have hdb := write_ok hrecord
  rw [(appendTimeline_ok hevent).2, write_ok hinsert] at hdb
  exact ⟨_, _, hdb, rfl, rfl⟩

theorem agrees_of_created (h : Created env caseId db) : Agrees env caseId db := by
  obtain ⟨stamp, actor, input, origin, row, w, w', rfl, h, rfl⟩ := h
  obtain ⟨event, record, hdb, hopen, hkind⟩ := createCase_ok h
  have htimeline : w'.db.timeline stamp.uuid = [timelineRow [] event (stamp.now 2)] := by
    rw [hdb]
    refine (timeline_appended _ _ _ _ _).trans ?_
    simp only [Function.update_self, if_pos, List.nil_append]
  have hhistory : statusHistory (w'.db.timeline stamp.uuid) = [] := by
    rw [htimeline]
    refine (statusHistory_append [] _).trans ?_
    rw [historyEntry_other (by rw [hkind]; decide)]
    rfl
  refine ⟨?_, .open, ?_, fun _ => ?_⟩
  · rw [htimeline]
    exact Numbered.append ⟨Nat.zero_le _, fun row hrow => absurd hrow List.not_mem_nil⟩
      (by decide) _ _
  · rw [hdb, ← hopen]
    exact statusOf_setCase_self w.db stamp.uuid _
  · rw [CaseDb.restoreTargetOf, hhistory]
    rfl

theorem agrees_step (h : Agrees env caseId db) (ha : a.On caseId) :
    Agrees env caseId (serviceStep env db a) := by
  obtain ⟨status, hstatus, htarget⟩ := h.target
  rcases serviceStep_effect ha h.numbered with hkept | hchanged | hacted
  · obtain ⟨hnumbered, hsame, -⟩ := hkept h.numbered
    refine ⟨hnumbered, status, hsame.trans hstatus, ?_⟩
    rwa [hkept.target h.numbered]
  · obtain ⟨old, new, -, -, hnew, hwritten⟩ := hchanged
    exact ⟨hwritten.numbered, new, hwritten.written, fun _ => hwritten.target_working hnew⟩
  · rename_i action
    cases action with
    | archive =>
      have hwritten := (archive_written h.numbered hacted).2.2
      exact ⟨hwritten.numbered, _, hwritten.written, fun hne => absurd rfl hne⟩
    | restore =>
      have hwritten := (restore_written h.numbered hacted).2
      exact ⟨hwritten.numbered, _, hwritten.written, fun hne => hwritten.target_working hne⟩

theorem target_of_archived (hnumbered : Numbered (db.timeline caseId)) (ha : a.On caseId)
    (hbefore : db.statusOf caseId = some ARCHIVED_STATUS)
    (hafter : (serviceStep env db a).statusOf caseId = some ARCHIVED_STATUS) :
    (serviceStep env db a).restoreTargetOf env caseId = db.restoreTargetOf env caseId := by
  rcases serviceStep_effect ha hnumbered with hkept | hchanged | hacted
  · exact hkept.target hnumbered
  · obtain ⟨old, new, hold, hworking, -, -⟩ := hchanged
    rw [hbefore] at hold
    exact absurd (Option.some.inj hold).symm hworking
  · rename_i action
    cases action with
    | archive => exact absurd hbefore (archive_written hnumbered hacted).2.1
    | restore =>
      have hwritten := (restore_written hnumbered hacted).2.written
      rw [hafter] at hwritten
      exact absurd (Option.some.inj hwritten).symm (restoreTarget_working _ _)

abbrev CaseRun (env : CaseEnv) (caseId : JsString) : CaseDb → CaseDb → Prop :=
  Reached (serviceStep env) fun _ a => a.On caseId

/-- A run of moves that each leave the case archived. -/
abbrev ArchivedRun (env : CaseEnv) (caseId : JsString) : CaseDb → CaseDb → Prop :=
  Reached (serviceStep env) fun db a =>
    a.On caseId ∧ (serviceStep env db a).statusOf caseId = some ARCHIVED_STATUS

theorem agrees_of_run {start : CaseDb} (hcreated : Created env caseId start)
    (hrun : CaseRun env caseId start db) : Agrees env caseId db :=
  hrun.invariant (agrees_of_created hcreated) fun _ _ h ha => agrees_step h ha

/-- The archive action that archived the case, and the status before it. -/
def ArchivedFrom (env : CaseEnv) (caseId : JsString) (start db : CaseDb) : Prop :=
  ∃ before a, CaseRun env caseId start before ∧ a.On caseId ∧ a.Succeeds env caseId .archive before ∧
    ArchivedRun env caseId (serviceStep env before a) db ∧
    before.statusOf caseId = some (db.restoreTargetOf env caseId)

theorem status_entered (hnumbered : Numbered (db.timeline caseId)) (ha : a.On caseId)
    (hbefore : db.statusOf caseId ≠ some ARCHIVED_STATUS)
    (hafter : (serviceStep env db a).statusOf caseId = some ARCHIVED_STATUS) :
    a.Succeeds env caseId .archive db := by
  rcases serviceStep_effect ha hnumbered with hkept | hchanged | hacted
  · rw [(hkept hnumbered).2.1] at hafter
    exact absurd hafter hbefore
  · obtain ⟨old, new, -, -, hnew, hwritten⟩ := hchanged
    rw [hwritten.written] at hafter
    exact absurd (Option.some.inj hafter) hnew
  · rename_i action
    cases action with
    | archive => exact hacted
    | restore => exact absurd (restore_written hnumbered hacted).1 hbefore

theorem status_left (hnumbered : Numbered (db.timeline caseId)) (ha : a.On caseId)
    (hbefore : db.statusOf caseId = some ARCHIVED_STATUS)
    (hafter : (serviceStep env db a).statusOf caseId ≠ some ARCHIVED_STATUS) :
    a.Succeeds env caseId .restore db := by
  rcases serviceStep_effect ha hnumbered with hkept | hchanged | hacted
  · rw [(hkept hnumbered).2.1] at hafter
    exact absurd hbefore hafter
  · obtain ⟨old, new, hold, hworking, -, -⟩ := hchanged
    rw [hbefore] at hold
    exact absurd (Option.some.inj hold).symm hworking
  · rename_i action
    cases action with
    | archive => exact absurd hbefore (archive_written hnumbered hacted).2.1
    | restore => exact hacted

theorem archivedFrom_of_run {start : CaseDb} (hcreated : Created env caseId start)
    (hrun : CaseRun env caseId start db) (harchived : db.statusOf caseId = some ARCHIVED_STATUS) :
    ArchivedFrom env caseId start db := by
  induction hrun with
  | start =>
    obtain ⟨stamp, actor, input, origin, row, w, w', rfl, h, rfl⟩ := hcreated
    obtain ⟨event, record, hdb, hopen, -⟩ := createCase_ok h
    have hstatus : w'.db.statusOf stamp.uuid = some .open := by
      rw [hdb, ← hopen]
      exact statusOf_setCase_self w.db stamp.uuid row
    rw [hstatus] at harchived
    cases harchived
  | @step before hrun a ha ih =>
    have hagrees := agrees_of_run hcreated hrun
    have hnumbered := hagrees.numbered
    by_cases hbefore : before.statusOf caseId = some ARCHIVED_STATUS
    · obtain ⟨first, b, hfirst, hb, hsucceeds, hsince, htarget⟩ := ih hbefore
      refine ⟨first, b, hfirst, hb, hsucceeds, .step hsince a ⟨ha, harchived⟩, ?_⟩
      rw [target_of_archived hnumbered ha hbefore harchived, htarget]
    · have hsucceeds := status_entered hnumbered ha hbefore harchived
      obtain ⟨status, hstatus, htarget⟩ := hagrees.target
      refine ⟨before, a, hrun, ha, hsucceeds, .start, ?_⟩
      rw [(archive_written hnumbered hsucceeds).2.2.target_archived, hstatus, htarget]
      exact fun heq => hbefore (heq ▸ hstatus)

/-- The lifecycle of a case at one move of a run. -/
structure LifecycleKept (env : CaseEnv) (caseId : JsString) (start db : CaseDb)
    (a : ServiceAttempt) : Prop where
  entered : db.statusOf caseId ≠ some ARCHIVED_STATUS →
    (serviceStep env db a).statusOf caseId = some ARCHIVED_STATUS →
      a.Succeeds env caseId .archive db
  left : db.statusOf caseId = some ARCHIVED_STATUS →
    (serviceStep env db a).statusOf caseId ≠ some ARCHIVED_STATUS →
      a.Succeeds env caseId .restore db
  unheld : a.Succeeds env caseId .archive db → db.heldOf caseId = some false
  target : db.statusOf caseId = some ARCHIVED_STATUS → ArchivedFrom env caseId start db
  restored : a.Succeeds env caseId .restore db → db.statusOf caseId = some ARCHIVED_STATUS ∧
    (serviceStep env db a).statusOf caseId = some (db.restoreTargetOf env caseId)
  /-- An action that expects something else is refused and changes nothing. -/
  refused : ∀ stamp request actor origin row,
    a.move = .call stamp (.applyLifecycleAction request actor origin) →
    request.investigationId = caseId → db.cases caseId = some row →
    request.expected ≠ ⟨row.status, row.legalHold, db.restoreTargetOf env caseId⟩ →
      serviceStep env db a = db ∧ (∃ e, (a.result env db).1 = .error e) ∧
      (∀ clientTime, a.faults = [] → env.canonicalClientTime request.clientTime = .ok clientTime →
        (a.result env db).1 = .error (.lifecycleChanged
          ⟨caseId, request.action, lifecycleOf env caseId row (db.timeline caseId)⟩))

theorem applyLifecycleAction_changed (hrow : db.cases request.investigationId = some row)
    (hclient : env.canonicalClientTime request.clientTime = .ok clientTime)
    (hexpected : request.expected ≠
      ⟨row.status, row.legalHold, db.restoreTargetOf env request.investigationId⟩) :
    applyLifecycleAction env stamp request actor origin ⟨db, []⟩ =
      (.error (.lifecycleChanged ⟨request.investigationId, request.action,
        lifecycleOf env request.investigationId row (db.timeline request.investigationId)⟩),
        ⟨db, []⟩) := by
  have htime : orError (env.canonicalClientTime request.clientTime) ⟨db, []⟩ =
      (.ok clientTime, ⟨db, []⟩) := by
    rw [hclient]
    rfl
  have hlocked : requireLocked request.investigationId ⟨db, []⟩ = (.ok row, ⟨db, []⟩) := by
    have hget : lockCase request.investigationId ⟨db, []⟩ = (.ok (some row), ⟨db, []⟩) := by
      rw [← hrow]
      rfl
    exact (Sql.bind_of_ok hget).trans rfl
  have hrows : listTimeline request.investigationId ⟨db, []⟩ =
      (.ok (db.timeline request.investigationId), ⟨db, []⟩) := rfl
  refine (Sql.bind_of_ok htime).trans (Sql.atomic_unchanged ?_)
  refine (Sql.bind_of_ok hlocked).trans ((Sql.bind_of_ok hrows).trans (Sql.bind_of_error ?_))
  exact Sql.demand_not hexpected _ _

theorem lifecycle_of_run {env : CaseEnv} {caseId : JsString} {start db : CaseDb}
    (hcreated : Created env caseId start) (hrun : CaseRun env caseId start db)
    (a : ServiceAttempt) (ha : a.On caseId) : LifecycleKept env caseId start db a := by
  have hnumbered := (agrees_of_run hcreated hrun).numbered
  constructor
  · exact status_entered hnumbered ha
  · exact status_left hnumbered ha
  · exact fun h => (archive_written hnumbered h).1
  · exact archivedFrom_of_run hcreated hrun
  · intro h
    obtain ⟨harchived, hwritten⟩ := restore_written hnumbered h
    exact ⟨harchived, hwritten.written⟩
  · rintro stamp request actor origin row hmove rfl hrow hexpected
    obtain ⟨move, faults⟩ := a
    subst hmove
    have hresult : ∃ e w', applyLifecycleAction env stamp request actor origin ⟨db, faults⟩ =
        (.error e, w') := by
      cases hx : applyLifecycleAction env stamp request actor origin ⟨db, faults⟩ with
      | mk r w' =>
        cases r with
        | error e => exact ⟨e, w', rfl⟩
        | ok result =>
          obtain ⟨row', _, _, _, _, hrow', hsame, -⟩ := applyLifecycleAction_ok hx
          rw [hrow] at hrow'
          cases hrow'
          exact absurd hsame hexpected
    obtain ⟨e, w', hresult⟩ := hresult
    have hvoid : Sql.void (applyLifecycleAction env stamp request actor origin) ⟨db, faults⟩ =
        (.error e, w') := by
      unfold Sql.void
      rw [hresult]
    refine ⟨?_, ⟨e, congrArg Prod.fst hvoid⟩, ?_⟩
    · refine (congrArg (·.2.db) hvoid).trans ?_
      exact undoes_applyLifecycleAction _ _ _ _ _ _ _ _ hresult
    · rintro clientTime rfl hclient
      rw [applyLifecycleAction_changed hrow hclient hexpected] at hresult
      cases hresult
      exact congrArg Prod.fst hvoid

/-- A case that a caller has created and archived. -/
def createdCase : CaseDb :=
  (createCase plainEnv noonStamp ⟨[1], [2]⟩ { title := [3] } [] ⟨{}, []⟩).2.db

def archiveAttempt : ServiceAttempt where
  move := .call noonStamp (.applyLifecycleAction ⟨[9], .archive, ⟨.open, false, .open⟩, none⟩
    ⟨[1], [2]⟩ [])

theorem lifecycle_of_run_archived :
    (serviceStep plainEnv createdCase archiveAttempt).statusOf [9] = some .archived ∧
    ∀ a : ServiceAttempt, a.On [9] →
      LifecycleKept plainEnv [9] createdCase (serviceStep plainEnv createdCase archiveAttempt) a :=
  ⟨rfl, lifecycle_of_run ⟨noonStamp, ⟨[1], [2]⟩, { title := [3] }, [], _, ⟨{}, []⟩, _, rfl,
    Prod.ext rfl rfl, rfl⟩ (.step .start archiveAttempt trivial)⟩

end ContextDesk
