import ContextDesk.Cases.Service

/-!
# What the calls may do to the store

A relation that `Permits` the writes of the calls is kept by every call that neither creates a case
nor changes a status, because each is made from statements that keep it. The two other kinds need
their own writes to be permitted as well.
-/

namespace ContextDesk

open Lib

/-- `R` holds across the writes that leave the statuses and the coordination alone. -/
structure Permits (R : CaseDb → CaseDb → Prop) : Prop where
  refl : ∀ db, R db db
  trans : ∀ a b c, R a b → R b c → R a c
  row : ∀ db id row row', db.cases id = some row → row'.status = row.status →
    row.participants ⊆ row'.participants → R db (db.setCase id row')
  timeline : ∀ db id event now, event.kind ≠ "case_status" →
    (db.timeline id).length < ARRAY_MAX_LENGTH → R db (db.appended id event now)
  record : ∀ db record, R db (CaseDb.record db record)
  revised : ∀ db rev, R db (CaseDb.revised db rev)
  snapshots : ∀ db : CaseDb, ∀ snapshots, R db { db with snapshots }
  resolutions : ∀ db : CaseDb, ∀ resolutions, R db { db with resolutions }

/-- `R` holds across a status change and its event, too. -/
structure PermitsStatus (R : CaseDb → CaseDb → Prop) : Prop extends Permits R where
  status : ∀ db id row status, db.cases id = some row →
    R db (db.setCase id { row with status })
  event : ∀ db id event now, (db.timeline id).length < ARRAY_MAX_LENGTH →
    R db (db.appended id event now)

variable {R : CaseDb → CaseDb → Prop} {env : CaseEnv} {stamp : Stamp} {now : UtcTime} {actor : Actor}
  {id caseId contributionId fingerprint body origin : JsString} {clientTime : Option JsString}

/-! ## Statements -/

theorem made_attempt {α : Type} {f : CaseDb → Except Thrown (α × CaseDb)}
    (hf : ∀ db a db', f db = .ok (a, db') → R db db') : Sql.Made .failed R (CaseM.attempt f) :=
  .step hf

section

variable (hrefl : ∀ db, R db db)

include hrefl

theorem made_select {α : Type} {f : CaseDb → α} : Sql.Made .failed R (CaseM.select f) := by
  refine made_attempt fun db a db' h => ?_
  cases h
  exact hrefl db

theorem made_requireCase : Sql.Made .failed R (requireCase id) :=
  .bind (made_select hrefl) fun _ => .lift _

theorem made_requireLocked : Sql.Made .failed R (requireLocked id) :=
  .bind (made_select hrefl) fun _ => .lift _

theorem made_requireLatest : Sql.Made .failed R (requireLatest caseId contributionId) :=
  .bind (made_select hrefl) fun _ => .lift _

theorem made_listSnapshotsByCase : Sql.Made .failed R (listSnapshotsByCase env caseId) := by
  refine made_attempt fun db a db' h => ?_
  cases hrows : collect env.persistedSnapshot (db.snapshots.filter (·.caseId = caseId)) with
  | error e =>
    rw [hrows] at h
    cases h
  | ok rows =>
    rw [hrows] at h
    cases h
    exact hrefl db

theorem made_onUniqueViolation {α : Type} (e : Thrown) :
    Sql.Made .failed R (onUniqueViolation caseId contributionId e : CaseM α) := by
  cases e with
  | uniqueViolation => exact .bind (made_requireLatest hrefl) fun _ => .fail _
  | _ => exact .fail _

theorem made_onFingerprintExists (e : Thrown) :
    Sql.Made .failed R (onFingerprintExists env caseId fingerprint e) := by
  cases e with
  | snapshotFingerprintExists =>
    exact .bind (made_listSnapshotsByCase hrefl) fun _ => .bind (.lift _) fun _ => .pure _
  | _ => exact .fail _

theorem made_checkLinks (caseId : JsString) (path : String) (links : List HypothesisLink) :
    ∀ index, Sql.Made .failed R (checkLinks env caseId path index links) := by
  induction links with
  | nil => exact fun _ => .pure ()
  | cons link links ih =>
    intro index
    refine .bind (.lift _) fun _ => .bind ?_ fun _ => .bind (.lift _) fun _ => ih (index + 1)
    unfold linkBelongs
    split
    · exact .bind (made_select hrefl) fun _ => .pure _
    · exact .bind (made_select hrefl) fun _ => .pure _

theorem made_validatedHypothesisLinks {raw : JsValue} {path : String} :
    Sql.Made .failed R (validatedHypothesisLinks env caseId raw path) :=
  .bind (.lift _) fun links => .bind (made_checkLinks hrefl _ _ links 0) fun _ => .pure _

end

theorem made_write {f : CaseDb → CaseDb} (hf : ∀ db, R db (f db)) :
    Sql.Made .failed R (CaseM.write f) := by
  refine made_attempt fun db a db' h => ?_
  cases h
  exact hf db

theorem made_updateCase {f : CaseRow → CaseRow}
    (hf : ∀ db row, db.cases id = some row → R db (db.setCase id (f row))) :
    Sql.Made .failed R (updateCase id f) := by
  refine made_attempt fun db a db' h => ?_
  split at h
  · cases h
  · rename_i row hrow
    cases h
    exact hf db row hrow

theorem made_appendTimeline {event : TimelineInsert}
    (hevent : ∀ db : CaseDb, (db.timeline id).length < ARRAY_MAX_LENGTH →
      R db (db.appended id event now)) : Sql.Made .failed R (appendTimeline id event now) := by
  refine made_attempt fun db a db' h => ?_
  split at h
  · rename_i hlength
    cases h
    exact hevent db hlength
  · cases h

/-! ## Calls -/

section

variable (hR : Permits R)

include hR

theorem made_event {event : TimelineInsert}
    (hkind : event.kind ≠ "case_status") : Sql.Made .failed R (appendTimeline id event now) :=
  made_appendTimeline fun db hlength => hR.timeline db id event now hkind hlength

theorem made_auditAppend {record : AuditRecord} : Sql.Made .failed R (auditAppend record) :=
  made_write fun db => hR.record db record

theorem made_insertRevision {rev : RevisionRow} : Sql.Made .failed R (insertRevision rev) := by
  refine made_attempt fun db a db' h => ?_
  split at h
  · cases h
  · cases h
    exact hR.revised db rev

theorem made_supersede : Sql.Made .failed R (supersede id now) := by
  refine made_attempt fun db a db' h => ?_
  split at h
  · cases h
    exact hR.resolutions db _
  · cases h

theorem made_insertResolution {row : ResolutionRow} :
    Sql.Made .failed R (insertResolution row) := by
  refine made_attempt fun db a db' h => ?_
  dsimp only at h
  split at h
  · cases h
  · cases h
    exact hR.resolutions db _

theorem made_insertSnapshot {row : SnapshotRow} : Sql.Made .failed R (insertSnapshot env row) := by
  refine made_attempt fun db a db' h => ?_
  split at h
  · cases h
  · split at h
    · cases h
    · split at h
      · cases h
      · cases h
        exact hR.snapshots db _

theorem made_appendDomainTimeline {event : TimelineInsert}
    (hkind : event.kind ≠ "case_status") :
    Sql.Made .failed R (appendDomainTimeline env caseId event now) :=
  .bind (.lift _) fun _ => .bind (made_requireCase hR.refl) fun _ => made_event hR hkind

theorem made_setOccurredAt {input : OccurredAtInput} :
    Sql.Made .failed R (setOccurredAt env stamp caseId actor input origin clientTime) := by
  refine .bind (.lift _) fun canonicalTime => .bind (made_requireCase hR.refl) fun row =>
    .bind (.lift _) fun occurrence => .bind ?_ fun _ =>
    .bind (made_event hR (by decide : "case_occurred_at" ≠ "case_status")) fun _ =>
    .bind (made_auditAppend hR) fun _ => made_requireCase hR.refl
  exact made_updateCase fun db row hrow => hR.row db caseId row _ hrow rfl (List.Subset.refl _)

theorem made_updateSituationAtomic {p : PreparedCall env.canonicalClientTime} :
    Sql.Made .failed R (updateSituationAtomic stamp caseId actor p origin) := by
  refine .atomic (.bind (made_select hR.refl) fun existing => ?_)
  cases existing with
  | none => exact .pure _
  | some existing =>
    refine .ite (.pure _) (.ite (.pure _) ?_)
    refine .bind ?_ fun _ =>
      .bind (made_event hR (by decide : "case_situation_updated" ≠ "case_status")) fun _ =>
      .bind (made_auditAppend hR) fun _ => .pure _
    exact made_updateCase fun db row hrow => hR.row db caseId row _ hrow rfl (List.Subset.refl _)

theorem made_updateSituation {call : SituationCall} :
    Sql.Made .failed R (updateSituation env stamp caseId actor call origin) :=
  .bind (.lift _) fun _ => .bind (.lift _) fun _ => .bind (made_requireCase hR.refl) fun _ =>
    .bind (.lift _) fun _ => .bind (made_updateSituationAtomic hR) fun _ => .lift _

theorem made_addParticipant {participant : ParticipantIdentityRow} :
    Sql.Made .failed R (addParticipant stamp caseId actor participant origin) := by
  refine .bind (made_requireCase hR.refl) fun _ => .atomic (.bind ?_ fun _ =>
    .bind (made_event hR (by decide : "membership" ≠ "case_status")) fun _ =>
    .bind (made_auditAppend hR) fun _ => made_requireCase hR.refl)
  refine made_updateCase fun db row hrow => hR.row db caseId row _ hrow ?_ ?_
  · split <;> rfl
  · split
    · exact List.Subset.refl _
    · exact List.subset_append_left _ _

theorem made_setLegalHold {legalHold : Bool} :
    Sql.Made .failed R (setLegalHold stamp caseId actor legalHold origin) := by
  refine .atomic (.bind (made_requireLocked hR.refl) fun _ => .bind ?_ fun _ =>
    .bind (made_event hR (by decide : "legal_hold" ≠ "case_status")) fun _ =>
    .bind (made_auditAppend hR) fun _ => made_requireCase hR.refl)
  exact made_updateCase fun db row hrow => hR.row db caseId row _ hrow rfl (List.Subset.refl _)

theorem made_recordResolution {input : ResolutionInput} :
    Sql.Made .failed R (recordResolution env stamp caseId actor input origin) :=
  .bind (.lift _) fun _ => .bind (made_select hR.refl) fun active => .bind (.lift _) fun _ =>
    .bind (.forSome (fun _ => made_supersede hR) active) fun _ =>
    .bind (made_insertResolution hR) fun _ =>
    .bind (made_appendDomainTimeline hR
      (by decide : "investigation_resolution_recorded" ≠ "case_status")) fun _ =>
    made_auditAppend hR

theorem made_authorizeStatus {call : StatusCall} {previousStatus : CaseStatus} :
    Sql.Made .failed R (authorizeStatus env stamp call previousStatus) := by
  refine .ite (.ite ?_ (.pure ())) ?_
  · exact .bind (made_select hR.refl) fun active => .forSome (fun _ =>
      .bind (made_supersede hR) fun _ => made_auditAppend hR) active
  · split
    · exact made_recordResolution hR
    · refine .bind (made_select hR.refl) fun active => ?_
      cases active with
      | none => exact .bind (made_auditAppend hR) fun _ => .fail _
      | some active => exact .lift _

theorem made_previewStatus {call : StatusCall} :
    Sql.Made .failed R (previewStatus env stamp call) := by
  refine .bind (.lift _) fun clientTime => .ite ?_ (.pure _)
  refine .bind (made_requireCase hR.refl) fun row => .ite (.pure _) ?_
  exact .bind (made_authorizeStatus hR) fun _ => .pure _

theorem made_authorizeRestore {request : InvestigationLifecycleActionRequestV1}
    {appliedStatus previousStatus : CaseStatus} :
    Sql.Made .failed R
      (authorizeRestore env stamp request actor origin appliedStatus previousStatus) :=
  .ite (.bind (.lift _) fun _ => made_authorizeStatus hR) (.pure ())

theorem made_reviseContribution {expectedRevision : Rat} :
    Sql.Made .failed R (reviseContribution env stamp caseId contributionId actor body origin
      expectedRevision clientTime) := by
  refine .bind (.lift _) fun _ => .handle (.atomic ?_) rfl (made_onUniqueViolation hR.refl)
  exact .bind (.lift _) fun _ => .bind (made_requireLatest hR.refl) fun _ =>
    .bind (.lift _) fun _ => .bind (.lift _) fun _ => .bind (made_insertRevision hR) fun _ =>
    .bind (made_event hR (by decide : "contribution_revised" ≠ "case_status")) fun _ =>
    .bind (made_auditAppend hR) fun _ => .pure _

theorem made_tombstoneContribution :
    Sql.Made .failed R (tombstoneContribution env stamp caseId contributionId actor origin) := by
  refine .handle (.atomic ?_) rfl (made_onUniqueViolation hR.refl)
  refine .bind (made_requireCase hR.refl) fun row => .bind (.lift _) fun _ =>
    .bind (made_requireLatest hR.refl) fun latest => .ite (.pure _) ?_
  exact .bind (made_insertRevision hR) fun _ =>
    .bind (made_event hR (by decide : "contribution_tombstoned" ≠ "case_status")) fun _ =>
    .bind (made_auditAppend hR) fun _ => .pure _

theorem made_setHypothesisStatus {status : HypothesisStatus} {linksInput : JsValue} :
    Sql.Made .failed R (setHypothesisStatus env stamp caseId contributionId actor status linksInput
      origin clientTime) := by
  refine .bind (.lift _) fun _ => .handle (.atomic ?_) rfl (made_onUniqueViolation hR.refl)
  refine .bind (made_requireLatest hR.refl) fun latest => .bind (.lift _) fun _ =>
    .bind (made_validatedHypothesisLinks hR.refl) fun links => .bind (.lift _) fun _ =>
      .ite (.pure _) ?_
  exact .bind (made_insertRevision hR) fun _ =>
    .bind (made_event hR (by decide : "hypothesis_status" ≠ "case_status")) fun _ =>
    .bind (made_auditAppend hR) fun _ => .pure _

theorem made_freezeSnapshot {row : SnapshotRow} :
    Sql.Made .failed R (freezeSnapshot env stamp caseId actor origin clientTime row) := by
  refine .bind (.handle (.bind (made_insertSnapshot hR) fun _ => .pure _) rfl
    (made_onFingerprintExists hR.refl)) fun found => ?_
  cases found with
  | some found => exact .pure _
  | none =>
    exact .bind (made_event hR (by decide : "snapshot_frozen" ≠ "case_status")) fun _ =>
      .bind (made_auditAppend hR) fun _ => .pure _

theorem made_createSnapshot {input : SnapshotInput} :
    Sql.Made .failed R (createSnapshot env stamp caseId actor input origin) := by
  refine .bind (.lift _) fun _ => .bind (made_requireCase hR.refl) fun _ =>
    .bind (.lift _) fun _ => .atomic (.bind (made_requireCase hR.refl) fun _ =>
    .bind (made_select hR.refl) fun _ => .bind (.lift _) fun _ =>
    .bind (made_listSnapshotsByCase hR.refl) fun existing => .bind (.lift _) fun _ => ?_)
  dsimp only
  split
  · exact .pure _
  · exact made_freezeSnapshot hR

end

/-! ## Calls that create a case or change a status -/

theorem made_createCase (hR : Permits R) {input : CreateCaseInput}
    (hinsert : ∀ db : CaseDb, ∀ row, R db { db.setCase stamp.uuid row with
      timeline := Function.update db.timeline stamp.uuid [] }) :
    Sql.Made .failed R (createCase env stamp actor input origin) :=
  .bind (.lift _) fun _ => .bind (.lift _) fun _ => .bind (.lift _) fun _ => .bind (.lift _) fun _ =>
    .atomic (.bind (made_write fun db => hinsert db _) fun _ =>
    .bind (made_event hR (by decide : "case_created" ≠ "case_status")) fun _ =>
    .bind (made_auditAppend hR) fun _ => .pure _)

section

variable (hR : PermitsStatus R)

include hR

theorem made_writeStatus {status : CaseStatus} :
    Sql.Made .failed R (writeStatus now caseId actor status clientTime origin) :=
  .bind (made_updateCase fun db row hrow => hR.status db caseId row status hrow) fun _ =>
    .bind (made_appendTimeline fun db hlength => hR.event db caseId _ now hlength) fun _ =>
    .bind (made_auditAppend hR.toPermits) fun _ => made_requireCase hR.refl

theorem made_changeStatus {call : StatusCall} {preview : StatusPreview} :
    Sql.Made .failed R (changeStatus env now call preview) :=
  .atomic (.bind (made_requireLocked hR.refl) fun _ => .bind (.lift _) fun _ =>
    .bind (.lift _) fun _ => .bind (.lift _) fun _ => made_writeStatus hR)

theorem made_setStatus {call : StatusCall} : Sql.Made .failed R (setStatus env stamp call) :=
  .bind (made_previewStatus hR.toPermits) fun _ => made_changeStatus hR

theorem made_applyLifecycleAction {request : InvestigationLifecycleActionRequestV1} :
    Sql.Made .failed R (applyLifecycleAction env stamp request actor origin) :=
  .bind (.lift _) fun _ => .atomic (.bind (made_requireLocked hR.refl) fun _ =>
    .bind (made_select hR.refl) fun _ => .bind (.lift _) fun _ => .bind (.lift _) fun _ =>
    .bind (made_authorizeRestore hR.toPermits) fun _ =>
    .bind (made_writeStatus hR) fun _ => .pure _)

end

def CaseCall.WritesStatus : CaseCall → Prop
  | .setStatus _ | .applyLifecycleAction .. => True
  | _ => False

theorem keeps_void {α : Type} {x : CaseM α} (hrefl : ∀ db, R db db)
    (htrans : ∀ a b c, R a b → R b c → R a c) (hx : Sql.Made .failed R x) :
    Sql.Keeps R (Sql.void x) := by
  intro w
  rw [Sql.void_db]
  exact hx.keeps hrefl htrans w

theorem keeps_otherCall (hR : Permits R) (stamp : Stamp) {call : CaseCall}
    (hcall : ¬ call.WritesStatus)
    (hinsert : ∀ actor input origin, call = .createCase actor input origin →
      ∀ db : CaseDb, ∀ row, R db { db.setCase stamp.uuid row with
        timeline := Function.update db.timeline stamp.uuid [] }) :
    Sql.Keeps R (runCall env stamp call) := by
  have hvoid {α : Type} {x : CaseM α} (hx : Sql.Made .failed R x) : Sql.Keeps R (Sql.void x) :=
    keeps_void hR.refl hR.trans hx
  cases call with
  | createCase => exact hvoid (made_createCase hR (hinsert _ _ _ rfl))
  | setOccurredAt => exact hvoid (made_setOccurredAt hR)
  | updateSituation => exact hvoid (made_updateSituation hR)
  | setStatus => exact (hcall trivial).elim
  | applyLifecycleAction => exact (hcall trivial).elim
  | addParticipant => exact hvoid (made_addParticipant hR)
  | setLegalHold => exact hvoid (made_setLegalHold hR)
  | reviseContribution => exact hvoid (made_reviseContribution hR)
  | tombstoneContribution => exact hvoid (made_tombstoneContribution hR)
  | setHypothesisStatus => exact hvoid (made_setHypothesisStatus hR)
  | createSnapshot => exact hvoid (made_createSnapshot hR)

end ContextDesk
