import ContextDesk.Cases.LifecycleRuns

/-!
# What stays over the runs of the case service

No order of moves takes back an event, an audit record, a revision, a member or the intent of a
coordination that succeeded (`caseStore_append_only`). Each revision of the coordination of a case
was applied by one intent, and each intent has applied one (`coordination_chain_of_run`).
-/

namespace ContextDesk

open Lib

variable {R : CaseDb → CaseDb → Prop} {env : CaseEnv} {caseId : JsString} {db : CaseDb}
  {a : ServiceAttempt}

/-- What every write keeps, every move keeps, if a coordination does. -/
theorem keeps_move (hR : PermitsStatus R) (ha : a.On caseId)
    (hinsert : ∀ db : CaseDb, ∀ id row, caseId ≠ id → R db { db.setCase id row with
      timeline := Function.update db.timeline id [] })
    (hcoordinate : ∀ stamp routeCaseId actor isAdmin input origin, Sql.Keeps R
      (coordinateInvestigation env stamp routeCaseId actor isAdmin input origin)) :
    R db (serviceStep env db a) := by
  obtain ⟨move, faults⟩ := a
  have hvoid {α : Type} {x : CaseM α} (hx : Sql.Keeps R x) :
      R db (Sql.void x ⟨db, faults⟩).2.db := by
    rw [Sql.void_db]
    exact hx ⟨db, faults⟩
  cases move with
  | statement statement =>
    refine (made_runStatement hR.toPermits fun _ event _ heq => ?_).keeps hR.refl hR.trans
      ⟨db, faults⟩
    rw [heq] at ha
    exact ha
  | coordinate => exact hvoid (hcoordinate _ _ _ _ _ _)
  | changeStatus => exact hvoid ((made_changeStatus hR).keeps hR.refl hR.trans)
  | call stamp call =>
    by_cases hcall : call.WritesStatus
    · cases call with
      | setStatus => exact hvoid ((made_setStatus hR).keeps hR.refl hR.trans)
      | applyLifecycleAction =>
        exact hvoid ((made_applyLifecycleAction hR).keeps hR.refl hR.trans)
      | _ => exact hcall.elim
    · refine keeps_otherCall hR.toPermits stamp hcall (fun actor input origin heq db row => ?_)
        ⟨db, faults⟩
      subst heq
      exact hinsert db _ row (Ne.symm ha)

/-! ## An append-only store -/

structure Appends (caseId : JsString) (db db' : CaseDb) : Prop where
  timeline : db.timeline caseId <+: db'.timeline caseId
  audit : db.audit <+: db'.audit
  revisions : ∀ id, db.revisions id <+: db'.revisions id
  members : ∀ row, db.cases caseId = some row →
    ∃ row', db'.cases caseId = some row' ∧ row.participants ⊆ row'.participants
  intents : ∀ key intent, db.investigationCoordinationSuccessIntents key = some intent →
    db'.investigationCoordinationSuccessIntents key = some intent

theorem Appends.refl (caseId : JsString) (db : CaseDb) : Appends caseId db db where
  timeline := List.prefix_rfl
  audit := List.prefix_rfl
  revisions _ := List.prefix_rfl
  members row hrow := ⟨row, hrow, List.Subset.refl _⟩
  intents _ _ h := h

theorem Appends.trans {a b c : CaseDb} (hab : Appends caseId a b) (hbc : Appends caseId b c) :
    Appends caseId a c where
  timeline := hab.timeline.trans hbc.timeline
  audit := hab.audit.trans hbc.audit
  revisions id := (hab.revisions id).trans (hbc.revisions id)
  members row hrow := by
    obtain ⟨row₁, hrow₁, hsub₁⟩ := hab.members row hrow
    obtain ⟨row₂, hrow₂, hsub₂⟩ := hbc.members row₁ hrow₁
    exact ⟨row₂, hrow₂, List.Subset.trans hsub₁ hsub₂⟩
  intents key intent h := hbc.intents key intent (hab.intents key intent h)

def CaseDb.coordinationRevision (db : CaseDb) (caseId : JsString) : Nat :=
  ((db.investigationCoordinations caseId).map (·.revision)).getD 0

/-- The revision that a stored success has applied. -/
def appliedRevision : JsValue → Nat
  | .object record =>
    match record.lookup "applied" with
    | some (.object applied) => natOf (JsRecord.get applied "revision")
    | _ => 0
  | _ => 0

theorem natOf_cast (n : Nat) : natOf (.number n) = n := by simp [natOf]

variable {nfkc : Normalizer} {date : DateParser}

theorem parsed_revision {p c : InvestigationCoordinationV1} {path : String}
    (h : parseInvestigationCoordination nfkc date p.toJs path = .ok c) :
    c.revision = p.revision := by
  simp only [parseInvestigationCoordination, checkEnvelope, bind_ok, pure_ok] at h
  obtain ⟨_, ⟨record, hrecord, _, -, rfl⟩, _, -, _, -, h⟩ := h
  have hrevision : c.revision = natOf (JsRecord.get record "revision") := by
    split at h <;>
    · obtain ⟨_, -, h⟩ := bind_ok.mp h
      obtain ⟨_, -, h⟩ := bind_ok.mp h
      obtain ⟨_, -, h⟩ := bind_ok.mp h
      cases h
      rfl
  cases hrecord
  exact hrevision.trans (natOf_cast p.revision)

theorem success_revision {s t : InvestigationCoordinationActionSuccessV1}
    (h : parseInvestigationCoordinationActionSuccess nfkc date s.toJs = .ok t) :
    t.applied.revision = s.applied.revision := by
  simp only [parseInvestigationCoordinationActionSuccess, checkEnvelope, bind_ok, pure_ok] at h
  obtain ⟨record, ⟨_, hrecord, _, -, rfl⟩, _, -, _, -, _, -, _, -, applied, happlied, h⟩ := h
  obtain ⟨_, -, _, -, _, -, _, -, _, -, rfl⟩ := h
  cases hrecord
  exact parsed_revision happlied

variable {row : CaseRow} {actor : Actor} {input : InvestigationCoordinationActionRequestV1}

theorem coordinationResponse_revision {stored : Option InvestigationCoordinationRow}
    {projection : InvestigationCoordinationRow} {success : InvestigationCoordinationActionSuccessV1}
    {updatedAt : UtcTime}
    (h : coordinationResponse env caseId row stored actor input updatedAt =
      .ok (projection, success)) :
    projection.caseId = caseId ∧
      projection.revision = (stored.map (·.revision)).getD 0 + 1 ∧
      success.applied.revision = projection.revision := by
  obtain ⟨current, hcurrent, h⟩ := except_bind_ok.mp h
  have hrevision : current.revision = (stored.map (·.revision)).getD 0 := by
    rw [parsed_revision (mapError_ok.mp hcurrent)]
    cases stored <;> rfl
  unfold evaluateInvestigationCoordination at h
  split at h
  · obtain ⟨_, -, h⟩ := except_bind_ok.mp h
    cases h
  split at h
  · obtain ⟨_, -, h⟩ := except_bind_ok.mp h
    cases h
  split at h
  · obtain ⟨_, -, h⟩ := except_bind_ok.mp h
    cases h
  obtain ⟨_, -, h⟩ := except_bind_ok.mp h
  obtain ⟨applied, happlied, h⟩ := except_bind_ok.mp h
  obtain ⟨_, hsuccess, h⟩ := except_bind_ok.mp h
  obtain ⟨_, -, h⟩ := except_bind_ok.mp h
  cases h
  refine ⟨rfl, congrArg (· + 1) hrevision, ?_⟩
  rw [success_revision (mapError_ok.mp hsuccess)]
  exact parsed_revision (mapError_ok.mp happlied)

/-- An action of the case was applied: the next revision, and a new intent with it. -/
def Coordinated (caseId : JsString) (db db' : CaseDb) : Prop :=
  ∃ (row : InvestigationCoordinationRow) (intent : InvestigationCoordinationSuccessIntent),
    row.caseId = caseId ∧ row.revision = db.coordinationRevision caseId + 1 ∧
    intent.caseId = caseId ∧ appliedRevision intent.successJson = row.revision ∧
    db.investigationCoordinationSuccessIntents intent.key = none ∧
    db'.investigationCoordinations = (db.coordinated row).investigationCoordinations ∧
    db'.investigationCoordinationSuccessIntents =
      (db.intended intent).investigationCoordinationSuccessIntents

theorem applyCoordination_ok {stamp : Stamp} {origin : JsString} {result : JsValue}
    {w w' : Work CaseDb}
    (h : applyCoordination env stamp caseId row actor input origin w = (.ok result, w')) :
    Coordinated caseId w.db w'.db := by
  obtain ⟨stored, w₁, hstored, h⟩ := Sql.bind_ok.mp h
  obtain ⟨rfl, hw₁⟩ := select_ok hstored
  obtain ⟨⟨projection, success⟩, _, hlift, h⟩ := Sql.bind_ok.mp h
  obtain ⟨hresponse, rfl⟩ := Sql.lift_ok.mp hlift
  obtain ⟨_, w₂, hsave, h⟩ := Sql.bind_ok.mp h
  obtain ⟨_, _, htime, h⟩ := Sql.bind_ok.mp h
  obtain ⟨-, rfl⟩ := Sql.lift_ok.mp htime
  obtain ⟨_, w₃, hevent, h⟩ := Sql.bind_ok.mp h
  obtain ⟨_, w₄, hrecord, h⟩ := Sql.bind_ok.mp h
  obtain ⟨_, w₅, hintent, h⟩ := Sql.bind_ok.mp h
  obtain ⟨-, rfl⟩ := Sql.pure_ok.mp h
  have hdb₄ := write_ok hrecord
  rw [(appendTimeline_ok hevent).2, write_ok hsave, hw₁] at hdb₄
  have hinsert := attempt_ok hintent
  obtain ⟨hcase, hrevision, happlied⟩ := coordinationResponse_revision hresponse
  split at hinsert
  · cases hinsert
  · rename_i hnone
    have hdb₅ := (Prod.mk.inj (Except.ok.inj hinsert)).2
    rw [hdb₄] at hnone hdb₅
    refine ⟨projection, _, hcase, hrevision, rfl, ?_, Option.not_isSome_iff_eq_none.mp hnone, ?_,
      ?_⟩
    · rw [← happlied]
      exact natOf_cast success.applied.revision
    · rw [← hdb₅]
      rfl
    · rw [← hdb₅]
      rfl

/-- A coordination writes nothing, or it applies one action. -/
theorem coordinateInvestigation_db (env : CaseEnv) (stamp : Stamp) (caseId : JsString)
    (actor : Actor) (isAdmin : Bool) (input : InvestigationCoordinationActionRequestV1)
    (origin : JsString) (w : Work CaseDb) :
    let w' := (coordinateInvestigation env stamp caseId actor isAdmin input origin w).2
    w'.db = w.db ∨ Coordinated caseId w.db w'.db := by
  unfold coordinateInvestigation
  rcases Sql.atomic_cases _ w with ⟨_, w', hx, hw⟩ | ⟨_, w', -, hw⟩
  case inr =>
    rw [hw]
    exact .inl rfl
  rw [hw]
  obtain ⟨row, w₁, hrow, hx⟩ := Sql.bind_ok.mp hx
  obtain ⟨_, _, hmember, hx⟩ := Sql.bind_ok.mp hx
  obtain ⟨-, rfl⟩ := Sql.demand_ok.mp hmember
  obtain ⟨prior, w₂, hprior, hx⟩ := Sql.bind_ok.mp hx
  have hdb : w₂.db = w.db := (select_ok hprior).2.trans (requireLocked_ok hrow).2
  cases prior with
  | some prior =>
    have hmade : Sql.Made .failed Eq (replayCoordination env caseId row actor input prior) :=
      .ite (.bind (made_select fun _ => rfl) fun _ => .bind (.lift _) fun _ =>
        .bind (.lift _) fun _ => .fail _) (.bind (.lift _) fun _ => .pure _)
    have hsame := hmade.keeps Eq.refl (fun _ _ _ => Eq.trans) w₂
    rw [show replayCoordination env caseId row actor input prior w₂ = _ from hx, hdb] at hsame
    exact .inl hsame.symm
  | none =>
    have hdone := applyCoordination_ok hx
    rw [hdb] at hdone
    exact .inr hdone

/-- The intent under a key has applied the revision. -/
def CaseDb.Applied (db : CaseDb) (key : JsString × JsString × JsString) (n : Nat) : Prop :=
  ∃ intent, db.investigationCoordinationSuccessIntents key = some intent ∧
    appliedRevision intent.successJson = n

/-- Each revision of the case was applied by one intent, and each intent has applied one. -/
def CoordinationChain (caseId : JsString) (db : CaseDb) : Prop :=
  ∀ n, (1 ≤ n ∧ n ≤ db.coordinationRevision caseId ↔ ∃ key, key.1 = caseId ∧ db.Applied key n) ∧
    ∀ key key', key.1 = caseId → key'.1 = caseId → db.Applied key n → db.Applied key' n → key = key'

theorem CoordinationChain.coordinated {id : JsString} {db' : CaseDb}
    (h : CoordinationChain caseId db) (hdone : Coordinated id db db') :
    CoordinationChain caseId db' := by
  obtain ⟨row, intent, hrow, hrevision, hcase, hjson, hnone, hrows, hintents⟩ := hdone
  have hfree (n) : ¬ db.Applied intent.key n := by
    rintro ⟨_, hsome, -⟩
    cases hnone.symm.trans hsome
  have happlied (key n) : db'.Applied key n ↔
      db.Applied key n ∨ key = intent.key ∧ n = db.coordinationRevision id + 1 := by
    unfold CaseDb.Applied
    by_cases hkey : key = intent.key
    · simp [hintents, CaseDb.intended, hkey, hnone, hjson, hrevision, eq_comm]
    · simp [hintents, CaseDb.intended, hkey]
  have hnext : db'.coordinationRevision caseId =
      if caseId = id then db.coordinationRevision id + 1 else db.coordinationRevision caseId := by
    rw [← hrevision]
    simp only [CaseDb.coordinationRevision, hrows, CaseDb.coordinated, hrow, Function.update_apply]
    split <;> rfl
  have hkey : intent.key.1 = id := hcase
  intro n
  simp only [happlied, hnext]
  have := h n
  have := hfree n
  split <;> grind

theorem permits_chain (caseId : JsString) :
    PermitsStatus fun db db' => CoordinationChain caseId db → CoordinationChain caseId db' where
  refl _ h := h
  trans _ _ _ hab hbc h := hbc (hab h)
  row _ _ _ _ _ _ _ h := h
  timeline _ _ _ _ _ _ h := h
  record _ _ h := h
  revised _ _ h := h
  snapshots _ _ h := h
  resolutions _ _ h := h
  status _ _ _ _ _ h := h
  event _ _ _ _ _ h := h

/-- Whatever fails and whoever acts, no revision is lost, and none is applied twice. -/
theorem coordination_chain_of_run {start : CaseDb} (hstart : CoordinationChain caseId start)
    (hrun : Reached (serviceStep env) (fun _ a => a.On caseId) start db) :
    CoordinationChain caseId db := by
  refine hrun.invariant hstart fun db a h ha =>
    keeps_move (permits_chain caseId) ha (fun _ _ _ _ h => h) ?_ h
  intro stamp routeCaseId actor isAdmin input origin w hchain
  rcases coordinateInvestigation_db env stamp routeCaseId actor isAdmin input origin w with
    hsame | hdone
  · rwa [hsame]
  · exact hchain.coordinated hdone

def letterStamp : Stamp := ⟨fun _ => noon, [65]⟩

def letterCase : CaseDb :=
  (createCase plainEnv letterStamp ⟨[66], [67]⟩ { title := [3] } [] ⟨{}, []⟩).2.db

def claimAttempt : ServiceAttempt where
  move := .coordinate letterStamp [65] ⟨[66], [67]⟩ false
    ⟨[65], .claim_self, none, 0, JsString.ofString "claim-0001", none⟩ []

theorem coordination_chain_of_run_claimed :
    (serviceStep plainEnv letterCase claimAttempt).coordinationRevision [65] = 1 ∧
      CoordinationChain [65] (serviceStep plainEnv letterCase claimAttempt) := by
  refine ⟨by decide +kernel,
    coordination_chain_of_run (fun n => ?_) (.step .start claimAttempt trivial)⟩
  refine ⟨⟨fun h => absurd (h.1.trans h.2) (by decide), ?_⟩, ?_⟩
  · rintro ⟨_, -, _, h, -⟩
    cases h
  · rintro _ _ - - ⟨_, h, -⟩
    cases h

end ContextDesk
