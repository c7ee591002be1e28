import ContextDesk.Lib.Runs
import ContextDesk.Sync.Chain

/-!
# Runs of batches against a destination

A batch whose plan says `apply` moves the state on: the objects as its operations leave them, its
operations among the applied ones, and the checkpoint behind them. Every other batch leaves the
state. The parser wants the ids of the applied operations to be different, whatever their source,
and the plan looks an id up under its source only, so a batch with an id that another source has
used leads to a state that is not accepted (`foreign_id_applied_twice`). On runs without such a
batch every law holds (`sync_runs`).
-/

namespace ContextDesk

open Lib List

section

variable (rt : SyncRuntime)

def appliedRow (o : InvestigationSyncOperationV1) : AppliedSyncOperationV1 :=
  { operationId := o.operationId, operationFingerprint := o.operationFingerprint,
    sourceInstallationId := o.sourceInstallationId, sourceSequence := o.sourceSequence }

/-- The state behind the operations of the batch. -/
def appliedState (destination : InvestigationSyncDestinationStateV1) (b : InvestigationSyncBatchV1)
    (checkpointAfter : InvestigationSyncCursorV1) : InvestigationSyncDestinationStateV1 :=
  { destination with
    checkpoint := checkpointAfter
    objects := (applyOperations destination.acceptedPrivacyClasses destination.objects
      b.operations).1
    appliedOperations := destination.appliedOperations ++ b.operations.map appliedRow }

def successor (s : InvestigationSyncDestinationStateV1) (b : InvestigationSyncBatchV1) :
    InvestigationSyncDestinationStateV1 :=
  match planInvestigationSync rt b s with
  | .ok plan =>
    if plan.outcome = .apply then appliedState (sortedState s) b plan.checkpointAfter else s
  | .error _ => s

/-- No id of the batch has been used by another source. -/
def OwnIds (s : InvestigationSyncDestinationStateV1) (b : InvestigationSyncBatchV1) : Prop :=
  ∀ o ∈ b.operations, ∀ row ∈ s.appliedOperations, row.operationId = o.operationId →
    row.sourceInstallationId = o.sourceInstallationId

end

/-! ## What a plan says -/

section

variable {rt : SyncRuntime} {s : InvestigationSyncDestinationStateV1} {b : InvestigationSyncBatchV1}

structure Plannable (rt : SyncRuntime) (s : InvestigationSyncDestinationStateV1)
    (b : InvestigationSyncBatchV1) : Prop where
  batch : BatchAccepted rt b
  state : StateAccepted s
  investigation : s.investigationId = b.investigationId
  source : s.checkpoint.sourceInstallationId = b.sourceInstallationId

theorem planInvestigationSync_ok {plan : InvestigationSyncPlanV1}
    (h : planInvestigationSync rt b s = .ok plan) :
    Plannable rt s b ∧ plan.outcome = planOutcome b (sortedState s) ∧
      plan.checkpointAfter = if plan.outcome = .apply then b.toCursor else s.checkpoint := by
  simp only [planInvestigationSync, bind_ok, ensure_ok, exists_unit, pure_ok,
    parseInvestigationSyncBatch_ok, parseInvestigationSyncDestinationState_ok] at h
  obtain ⟨_, ⟨hbatch, rfl⟩, _, ⟨hstate, rfl⟩, hinvestigation, hsource, _, -, rfl⟩ := h
  exact ⟨⟨hbatch, hstate, hinvestigation, hsource⟩, rfl, rfl⟩

theorem exists_plan (h : Plannable rt s b) : ∃ plan, planInvestigationSync rt b s = .ok plan := by
  obtain ⟨fingerprint, hfingerprint⟩ : ∃ fingerprint,
      investigationSyncDestinationStateFingerprint rt (sortedState s) = .ok fingerprint := by
    refine ⟨_, bind_ok.mpr ⟨_, parse_sorted h.state, rfl⟩⟩
  refine ⟨_, bind_ok.mpr ⟨b, parseInvestigationSyncBatch_ok.mpr ⟨h.batch, rfl⟩, bind_ok.mpr
    ⟨_, parseInvestigationSyncDestinationState_ok.mpr ⟨h.state, rfl⟩, bind_ok.mpr
    ⟨(), ensure_ok.mpr h.investigation, bind_ok.mpr ⟨(), ensure_ok.mpr h.source, bind_ok.mpr
    ⟨fingerprint, hfingerprint, rfl⟩⟩⟩⟩⟩⟩

/-! ## Looking rows up -/

theorem lastWith_some {α : Type} {key : α → JsString} {k : JsString} {rows : List α} {row : α}
    (h : lastWith key k rows = some row) : row ∈ rows ∧ key row = k := by
  have hkey := find?_some h
  exact ⟨mem_reverse.mp (mem_of_find?_eq_some h), of_decide_eq_true hkey⟩

theorem lastWith_none {α : Type} {key : α → JsString} {k : JsString} {rows : List α}
    (h : lastWith key k rows = none) : ∀ row ∈ rows, key row ≠ k := by
  intro row hrow heq
  exact find?_eq_none.mp h row (mem_reverse.mpr hrow) (decide_eq_true heq)

theorem idKey_inj {source source' id id' : JsString} (hsource : isInstallationId source = true)
    (hsource' : isInstallationId source' = true) (h : idKey source id = idKey source' id') :
    source = source' ∧ id = id' :=
  joinKey_inj (zero_of_installationId hsource) (zero_of_installationId hsource') h

variable {n : Nat}

theorem sequenceKey_inj {source source' : JsString} {n' : Nat}
    (hsource : isInstallationId source = true) (hsource' : isInstallationId source' = true)
    (h : sequenceKey source n = sequenceKey source' n') : source = source' ∧ n = n' := by
  obtain ⟨heq, hdigits⟩ := joinKey_inj (zero_of_installationId hsource)
    (zero_of_installationId hsource') h
  exact ⟨heq, JsonText.decimal_injective (NumberText.ext_text hdigits)⟩

variable {row : AppliedSyncOperationV1} {o : InvestigationSyncOperationV1}

theorem appliedById_eq (hs : StateAccepted s) (hrow : row ∈ s.appliedOperations)
    (ho : isInstallationId o.sourceInstallationId = true)
    (hsource : row.sourceInstallationId = o.sourceInstallationId)
    (hid : row.operationId = o.operationId) : appliedById s o = some row := by
  unfold appliedById
  cases hlast : lastWith (fun row : AppliedSyncOperationV1 =>
      idKey row.sourceInstallationId row.operationId)
      (idKey o.sourceInstallationId o.operationId) s.appliedOperations with
  | none => exact absurd (by rw [hsource, hid]) (lastWith_none hlast row hrow)
  | some row' =>
    obtain ⟨hmem, hkey⟩ := lastWith_some hlast
    obtain ⟨-, hid'⟩ := idKey_inj (hs.applied row' hmem).source ho hkey
    rw [inj_on_of_nodup_map hs.ids hmem hrow (hid'.trans hid.symm)]

/-! ## Objects -/

variable {x : SyncDestinationObjectV1} {objects : List SyncDestinationObjectV1}

theorem mem_setObject {row : SyncDestinationObjectV1} (hnodup : (objects.map (·.key)).Nodup) :
    x ∈ setObject row objects ↔ x = row ∨ (x ∈ objects ∧ x.key ≠ row.key) := by
  induction objects with
  | nil => simp [setObject]
  | cons other objects ih =>
    rw [map_cons, nodup_cons] at hnodup
    rw [setObject]
    split
    · rename_i heq
      have hfresh : ∀ y ∈ objects, y.key ≠ row.key := fun y hy hkey =>
        hnodup.1 (heq ▸ hkey ▸ mem_map_of_mem hy)
      rw [mem_cons, mem_cons]
      constructor
      · rintro (rfl | hx)
        · exact .inl rfl
        · exact .inr ⟨.inr hx, hfresh x hx⟩
      · rintro (rfl | ⟨rfl | hx, hkey⟩)
        · exact .inl rfl
        · exact absurd heq hkey
        · exact .inr hx
    · rename_i hne
      rw [mem_cons, mem_cons, ih hnodup.2]
      constructor
      · rintro (rfl | rfl | ⟨hx, hkey⟩)
        · exact .inr ⟨.inl rfl, hne⟩
        · exact .inl rfl
        · exact .inr ⟨.inr hx, hkey⟩
      · rintro (rfl | ⟨rfl | hx, hkey⟩)
        · exact .inr (.inl rfl)
        · exact .inl rfl
        · exact .inr (.inr ⟨hx, hkey⟩)

theorem keys_setObject {row : SyncDestinationObjectV1} (hnodup : (objects.map (·.key)).Nodup) :
    ((setObject row objects).map (·.key)).Nodup := by
  induction objects with
  | nil => simp [setObject]
  | cons other objects ih =>
    have hcons := hnodup
    rw [map_cons, nodup_cons] at hcons
    rw [setObject]
    split
    · rename_i heq
      rw [map_cons, ← heq]
      exact hnodup
    · rename_i hne
      rw [map_cons, nodup_cons]
      refine ⟨fun hmem => ?_, ih hcons.2⟩
      obtain ⟨x, hx, hkey⟩ := mem_map.mp hmem
      rcases (mem_setObject hcons.2).mp hx with rfl | ⟨hx, -⟩
      · exact hne hkey.symm
      · exact hcons.1 (hkey ▸ mem_map_of_mem hx)

/-- The operation takes its object from the revision and the hash it was recorded against to the
next revision, and leaves the other objects. -/
structure Advances (objects : List SyncDestinationObjectV1) (o : InvestigationSyncOperationV1)
    (objects' : List SyncDestinationObjectV1) : Prop where
  base : (o.object.baseRevision = 0 ∧ o.object.baseHash = none ∧
      ∀ x ∈ objects, x.key ≠ o.objectKey) ∨
    ∃ x ∈ objects, x.key = o.objectKey ∧ x.revision = o.object.baseRevision ∧
      x.objectHash = o.object.baseHash ∧ (x.tombstoned = true → o.mutation = .tombstone) ∧
      (x.privacyClass = .owner_only → o.object.privacyClass = .owner_only)
  revision : (resultObject o).revision = o.object.baseRevision + 1
  after : ∀ x : SyncDestinationObjectV1,
    x ∈ objects' ↔ x = resultObject o ∨ (x ∈ objects ∧ x.key ≠ o.objectKey)

/-- The operations take the objects there, one after the other. -/
inductive AdvancesAll : List SyncDestinationObjectV1 → List InvestigationSyncOperationV1 →
    List SyncDestinationObjectV1 → Prop
  | nil (objects : List SyncDestinationObjectV1) : AdvancesAll objects [] objects
  | cons {objects middle objects' : List SyncDestinationObjectV1} {o : InvestigationSyncOperationV1}
      {operations : List InvestigationSyncOperationV1} (head : Advances objects o middle)
      (tail : AdvancesAll middle operations objects') : AdvancesAll objects (o :: operations) objects'

theorem advances_of_objectConflict {accepted : List PrivacyClass}
    (hnodup : (objects.map (·.key)).Nodup) (hrow : ValidRow rt o.unsigned)
    (h : objectConflict accepted objects o = none) :
    Advances objects o (setObject (resultObject o) objects) := by
  refine ⟨?_, hrow.base.result, fun x => mem_setObject hnodup⟩
  · unfold objectConflict at h
    split at h
    · cases h
    · dsimp only at h
      split at h
      · rename_i hzero
        split at h
        · cases h
        · rename_i hnone
          rw [Option.not_isSome_iff_eq_none] at hnone
          refine .inl ⟨hzero, hrow.base.create hzero, fun x hx hkey => ?_⟩
          exact find?_eq_none.mp hnone x hx (decide_eq_true hkey)
      · cases hfind : findObject objects o.objectKey with
        | none =>
          rw [hfind] at h
          cases h
        | some x =>
          rw [hfind] at h
          dsimp only at h
          split_ifs at h with hrevision hhash hprivacy htombstone
          have hkey := find?_some hfind
          refine .inr ⟨x, mem_of_find?_eq_some hfind, of_decide_eq_true hkey,
            not_not.mp hrevision, not_not.mp hhash, fun htomb => ?_, fun howner => ?_⟩
          · cases hmutation : o.mutation with
            | tombstone => rfl
            | upsert => exact absurd ⟨htomb, hmutation⟩ htombstone
          · cases hclass : o.object.privacyClass with
            | owner_only => rfl
            | share_safe => exact absurd ⟨howner, hclass⟩ hprivacy

variable {operations : List InvestigationSyncOperationV1}

theorem applyOperations_advances {accepted : List PrivacyClass}
    (hnodup : (objects.map (·.key)).Nodup) (hrows : ∀ o ∈ operations, ValidRow rt o.unsigned)
    (h : (applyOperations accepted objects operations).2 = []) :
    AdvancesAll objects operations (applyOperations accepted objects operations).1 ∧
      (((applyOperations accepted objects operations).1).map (·.key)).Nodup := by
  induction operations generalizing objects with
  | nil => exact ⟨.nil objects, hnodup⟩
  | cons o operations ih =>
    rw [applyOperations] at h ⊢
    cases hconflict : objectConflict accepted objects o with
    | some conflict =>
      rw [hconflict] at h
      cases h
    | none =>
      rw [hconflict] at h
      dsimp only at h ⊢
      obtain ⟨hrest, hkeys⟩ := ih (keys_setObject hnodup)
        (fun o' ho' => hrows o' (mem_cons_of_mem _ ho')) h
      exact ⟨.cons (advances_of_objectConflict hnodup (hrows o mem_cons_self) hconflict) hrest,
        hkeys⟩

variable {objects' : List SyncDestinationObjectV1}

theorem AdvancesAll.origin (h : AdvancesAll objects operations objects') (hx : x ∈ objects') :
    x ∈ objects ∨ ∃ o ∈ operations, x = resultObject o := by
  induction h with
  | nil => exact .inl hx
  | cons head tail ih =>
    rcases ih hx with hx | ⟨o, ho, rfl⟩
    · rcases (head.after x).mp hx with rfl | ⟨hx, -⟩
      · exact .inr ⟨_, mem_cons_self, rfl⟩
      · exact .inl hx
    · exact .inr ⟨o, mem_cons_of_mem _ ho, rfl⟩

def KeysDiffer (objects : List SyncDestinationObjectV1) : Prop :=
  ∀ x ∈ objects, ∀ y ∈ objects, x.key = y.key → x = y

theorem keysDiffer_of_nodup (h : (objects.map (·.key)).Nodup) : KeysDiffer objects :=
  fun _ hx _ hy heq => inj_on_of_nodup_map h hx hy heq

theorem Advances.keysDiffer (h : Advances objects o objects') (hkeys : KeysDiffer objects) :
    KeysDiffer objects' := by
  intro x hx y hy heq
  rcases (h.after x).mp hx with rfl | ⟨hx, hxkey⟩ <;> rcases (h.after y).mp hy with rfl | ⟨hy, hykey⟩
  · rfl
  · exact absurd heq.symm hykey
  · exact absurd heq hxkey
  · exact hkeys x hx y hy heq

structure LaterObject (x x' : SyncDestinationObjectV1) : Prop where
  key : x'.key = x.key
  revision : x.revision ≤ x'.revision
  tombstoned : x.tombstoned = true → x'.tombstoned = true
  owner : x.privacyClass = .owner_only → x'.privacyClass = .owner_only

theorem LaterObject.refl (x : SyncDestinationObjectV1) : LaterObject x x := ⟨rfl, le_rfl, id, id⟩

theorem LaterObject.trans {y z : SyncDestinationObjectV1} (h : LaterObject x y)
    (h' : LaterObject y z) : LaterObject x z :=
  ⟨h'.key.trans h.key, h.revision.trans h'.revision, fun ht => h'.tombstoned (h.tombstoned ht),
    fun ho => h'.owner (h.owner ho)⟩

theorem Advances.later (h : Advances objects o objects') (hkeys : KeysDiffer objects)
    (hx : x ∈ objects) : ∃ x' ∈ objects', LaterObject x x' := by
  by_cases hkey : x.key = o.objectKey
  · rcases h.base with ⟨-, -, hnone⟩ | ⟨y, hy, hykey, hrevision, -, htomb, howner⟩
    · exact absurd hkey (hnone x hx)
    · have heq := hkeys x hx y hy (hkey.trans hykey.symm)
      subst heq
      refine ⟨resultObject o, (h.after _).mpr (.inl rfl), hkey.symm, ?_, fun ht => ?_, howner⟩
      · rw [h.revision, hrevision]
        omega
      · exact decide_eq_true (htomb ht)
  · exact ⟨x, (h.after x).mpr (.inr ⟨hx, hkey⟩), .refl x⟩

theorem AdvancesAll.later (h : AdvancesAll objects operations objects')
    (hkeys : KeysDiffer objects) (hx : x ∈ objects) : ∃ x' ∈ objects', LaterObject x x' := by
  induction h generalizing x with
  | nil => exact ⟨x, hx, .refl x⟩
  | cons head tail ih =>
    obtain ⟨y, hy, hxy⟩ := head.later hkeys hx
    obtain ⟨z, hz, hyz⟩ := ih (head.keysDiffer hkeys) hy
    exact ⟨z, hz, hxy.trans hyz⟩

/-- The revision under the key, zero where there is no object. -/
def RevisionIs (objects : List SyncDestinationObjectV1) (key : JsString) (n : Nat) : Prop :=
  (∃ x ∈ objects, x.key = key ∧ x.revision = n) ∨ (n = 0 ∧ ∀ x ∈ objects, x.key ≠ key)

theorem Advances.revisionIs (h : Advances objects o objects') (hkeys : KeysDiffer objects)
    {key : JsString} (hn : RevisionIs objects key n) :
    RevisionIs objects' key (if o.objectKey = key then n + 1 else n) := by
  split
  · rename_i hkey
    subst hkey
    have hresult : (resultObject o).revision = n + 1 := by
      rw [h.revision]
      rcases h.base with ⟨hzero, -, hnone⟩ | ⟨y, hy, hykey, hrevision, -⟩ <;>
        rcases hn with ⟨x, hx, hxkey, rfl⟩ | ⟨rfl, habsent⟩
      · exact absurd hxkey (hnone x hx)
      · rw [hzero]
      · rw [hkeys x hx y hy (hxkey.trans hykey.symm), hrevision]
      · exact absurd hykey (habsent y hy)
    exact .inl ⟨resultObject o, (h.after _).mpr (.inl rfl), rfl, hresult⟩
  · rename_i hkey
    rcases hn with ⟨x, hx, rfl, rfl⟩ | ⟨rfl, habsent⟩
    · exact .inl ⟨x, (h.after x).mpr (.inr ⟨hx, Ne.symm hkey⟩), rfl, rfl⟩
    · refine .inr ⟨rfl, fun x hx => ?_⟩
      rcases (h.after x).mp hx with rfl | ⟨hx, -⟩
      · exact hkey
      · exact habsent x hx

theorem AdvancesAll.revisionIs (h : AdvancesAll objects operations objects')
    (hkeys : KeysDiffer objects) {key : JsString} (hn : RevisionIs objects key n) :
    RevisionIs objects' key (n + operations.countP fun o => o.objectKey = key) := by
  induction h generalizing n with
  | nil => exact hn
  | @cons objects middle objects' o operations head tail ih =>
    have hrest := ih (head.keysDiffer hkeys) (head.revisionIs hkeys hn)
    rw [countP_cons]
    by_cases hkey : o.objectKey = key
    · rw [if_pos hkey] at hrest
      rw [if_pos (decide_eq_true hkey)]
      rw [← Nat.add_assoc, Nat.add_right_comm]
      exact hrest
    · rw [if_neg hkey] at hrest
      rw [if_neg (by simpa using hkey)]
      exact hrest

/-! ## A batch that is applied -/

structure Applies (s : InvestigationSyncDestinationStateV1) (b : InvestigationSyncBatchV1) :
    Prop where
  nonempty : b.operations ≠ []
  source : s.destinationInstallationId ≠ b.sourceInstallationId
  cursor : s.checkpoint = b.fromCursor
  fresh : ∀ o ∈ b.operations, appliedById s o = none
  objects : (applyOperations s.acceptedPrivacyClasses s.objects b.operations).2 = []

theorem applies_of_outcome (h : planOutcome b s = .apply) : Applies s b := by
  unfold planOutcome at h
  split_ifs at h with hconflicts hreplay
  rw [not_not] at hconflicts
  rw [not_or] at hreplay
  have hexact : exactReplay b s = false := Bool.not_eq_true _ ▸ hreplay.1
  unfold planConflicts at hconflicts
  dsimp only at hconflicts
  by_cases hhistory : historyConflicts b s = []
  · rw [if_pos ⟨hexact, hhistory⟩] at hconflicts
    simp only [historyConflicts, append_eq_nil_iff, flatMap_eq_nil_iff, hexact,
      true_and, ite_eq_right_iff, imp_false, not_not, cons_ne_self] at hhistory
    obtain ⟨⟨⟨hsource, hidentity⟩, hcursor⟩, hpartial⟩ := hhistory
    refine ⟨hreplay.2, hsource, cursor_inj hcursor, fun o ho => ?_, hconflicts⟩
    cases hfind : appliedById s o with
    | none => rfl
    | some row =>
      -- an applied operation with this id would be a collision or a replay
      have hidentity := hidentity o ho
      simp only [identityConflicts, append_eq_nil_iff, hfind, Option.any_some] at hidentity
      have hsame : row.operationFingerprint = o.operationFingerprint := by
        by_contra hne
        have hcollision := hidentity.1
        rw [if_pos (decide_eq_true hne)] at hcollision
        cases hcollision
      have hreplayed : isReplay s o = true := by
        rw [isReplay, hfind, Option.map_some, hsame]
        exact decide_eq_true rfl
      have hmem : o ∈ b.operations.filter (isReplay s) := mem_filter.mpr ⟨ho, hreplayed⟩
      exact absurd (length_pos_of_mem hmem) hpartial
  · rw [if_neg fun hboth => hhistory hboth.2] at hconflicts
    exact absurd hconflicts hhistory

theorem BatchAccepted.exists_last (hb : BatchAccepted rt b) (hne : b.operations ≠ []) :
    ∃ last ∈ b.operations, b.toCursor.throughSequence = last.sourceSequence ∧
      b.toCursor.lastOperationId = some last.operationId ∧
      b.toCursor.lastOperationFingerprint = some last.operationFingerprint ∧
      last.sourceSequence = b.fromCursor.throughSequence + b.operations.length := by
  have hlast := getLast?_eq_some_getLast hne
  have htip := hb.tip
  rw [tipCursor, hlast] at htip
  refine ⟨b.operations.getLast hne, getLast_mem hne, by rw [htip], by rw [htip], by rw [htip], ?_⟩
  have := hb.chain.last hlast
  omega

theorem BatchAccepted.through (hb : BatchAccepted rt b) (hne : b.operations ≠ [])
    (ho : o ∈ b.operations) : o.sourceSequence ≤ b.toCursor.throughSequence := by
  have htip := hb.tip
  rw [tipCursor, getLast?_eq_some_getLast hne] at htip
  rw [htip]
  show o.sourceSequence ≤ (b.operations.getLast hne).sourceSequence
  rcases mem_iff_getElem.mp ho with ⟨i, hi, rfl⟩
  rw [getLast_eq_getElem]
  by_cases hlast : i = b.operations.length - 1
  · subst hlast
    exact le_rfl
  · exact le_of_lt (pairwise_iff_getElem.mp hb.chain.ascending i (b.operations.length - 1) hi
      (by omega) (by omega))

theorem fresh_of_applies (hs : StateAccepted s) (hb : BatchAccepted rt b) (h : Applies s b)
    (hown : OwnIds s b) (ho : o ∈ b.operations) (hrow : row ∈ s.appliedOperations) :
    row.operationId ≠ o.operationId ∧ row.sequenceKey ≠ (appliedRow o).sequenceKey := by
  obtain ⟨hvalid, hsource, -, hsequence⟩ := hb.chain.valid ho
  constructor
  · intro hid
    have hfound := appliedById_eq hs hrow hvalid.source (hown o ho row hrow hid) hid
    rw [h.fresh o ho] at hfound
    cases hfound
  · intro hkey
    obtain ⟨hsame, hnumber⟩ := sequenceKey_inj (hs.applied row hrow).source hvalid.source hkey
    have hwithin := hs.bound.within row hrow (by
      rw [h.cursor, hb.cursorSource.1, ← hsource]
      exact hsame)
    rw [h.cursor] at hwithin
    have heq : row.sourceSequence = o.sourceSequence := hnumber
    omega

theorem bound_appliedState (hs : StateAccepted s) (hb : BatchAccepted rt b) (h : Applies s b) :
    CheckpointBound b.toCursor (s.appliedOperations ++ b.operations.map appliedRow) := by
  obtain ⟨last, hlast, hthrough, hid, hfingerprint, hcount⟩ := hb.exists_last h.nonempty
  refine ⟨fun row hrow hsource => ?_, fun _ => ?_⟩
  · rcases mem_append.mp hrow with hrow | hrow
    · have hwithin := hs.bound.within row hrow (by
        rw [h.cursor, hb.cursorSource.1, ← hb.cursorSource.2]
        exact hsource)
      rw [h.cursor] at hwithin
      omega
    · obtain ⟨o, ho, rfl⟩ := mem_map.mp hrow
      exact hb.through h.nonempty ho
  · refine ⟨appliedRow last, mem_append_right _ (mem_map_of_mem hlast), ?_, hthrough.symm,
      hid, hfingerprint⟩
    rw [hb.cursorSource.2]
    exact (hb.chain.valid hlast).2.1

theorem StateAccepted.applied_state (hs : StateAccepted s) (hb : BatchAccepted rt b)
    (h : Applies s b) (hown : OwnIds s b) : StateAccepted (appliedState s b b.toCursor) := by
  have hfree := batch_free.mp hb.credentials
  have hrows : ∀ o ∈ b.operations, ValidRow rt o.unsigned := fun o ho => (hb.chain.valid ho).1
  obtain ⟨hadvances, hkeys⟩ := applyOperations_advances hs.keys hrows h.objects
  have hobject : ∀ x ∈ (appliedState s b b.toCursor).objects,
      x ∈ s.objects ∨ ∃ o ∈ b.operations, x = resultObject o := fun x hx => hadvances.origin hx
  have hrow : ∀ row ∈ (appliedState s b b.toCursor).appliedOperations,
      row ∈ s.appliedOperations ∨ ∃ o ∈ b.operations, row = appliedRow o := by
    intro row hrow
    rcases mem_append.mp hrow with hrow | hrow
    · exact .inl hrow
    · obtain ⟨o, ho, rfl⟩ := mem_map.mp hrow
      exact .inr ⟨o, ho, rfl⟩
  refine ⟨⟨hs.shape.destination, hs.shape.investigation, hb.shape.toCursor, fun x hx => ?_,
    fun row hrow' => ?_⟩, ⟨hs.free.destination, hs.free.investigation, hfree.toCursor,
    fun x hx => ?_, fun row hrow' => ?_⟩, hs.destination, hb.toCursor, hs.investigation, hs.classes,
    hs.classesNodup, fun x hx => ?_, hkeys, fun row hrow' => ?_, ?_, ?_, bound_appliedState hs hb h⟩
  · rcases hobject x hx with hx | ⟨o, ho, rfl⟩
    · exact hs.shape.objects x hx
    · have hshape := hb.shape.operations o ho
      exact ⟨hshape.source, hshape.objectId, hshape.result⟩
  · rcases hrow row hrow' with hrow' | ⟨o, ho, rfl⟩
    · exact hs.shape.applied row hrow'
    · have hshape := hb.shape.operations o ho
      exact ⟨hshape.operationId, hshape.source, hshape.sequence⟩
  · rcases hobject x hx with hx | ⟨o, ho, rfl⟩
    · exact hs.free.objects x hx
    · have hrowFree := (hfree.operations o ho).row
      exact ⟨hrowFree.source, hrowFree.objectId, hrowFree.resultHash⟩
  · rcases hrow row hrow' with hrow' | ⟨o, ho, rfl⟩
    · exact hs.free.applied row hrow'
    · have hoperation := hfree.operations o ho
      exact ⟨hoperation.row.operationId, hoperation.fingerprint, hoperation.row.source⟩
  · rcases hobject x hx with hx | ⟨o, ho, rfl⟩
    · exact hs.objects x hx
    · have hvalid := hrows o ho
      refine ⟨hvalid.source, hvalid.objectId, ?_, hvalid.mutation.resultHash⟩
      show 1 ≤ o.object.resultRevision
      rw [hvalid.base.result]
      omega
  · rcases hrow row hrow' with hrow' | ⟨o, ho, rfl⟩
    · exact hs.applied row hrow'
    · have hvalid := hrows o ho
      exact ⟨hvalid.operationId, hvalid.source, hb.chain.fingerprint ho, hvalid.sequence⟩
  · show ((s.appliedOperations ++ b.operations.map appliedRow).map (·.operationId)).Nodup
    rw [map_append, map_map]
    refine nodup_append'.mpr ⟨hs.ids, hb.chain.fresh.1, fun id hid hid' => ?_⟩
    obtain ⟨row, hrow, rfl⟩ := mem_map.mp hid
    obtain ⟨o, ho, heq⟩ := mem_map.mp hid'
    exact (fresh_of_applies hs hb h hown ho hrow).1 heq.symm
  · show ((s.appliedOperations ++ b.operations.map appliedRow).map (·.sequenceKey)).Nodup
    rw [map_append, map_map]
    refine nodup_append'.mpr ⟨hs.sequences, ?_, fun key hkey hkey' => ?_⟩
    · refine pairwise_map.mpr (hb.chain.ascending.imp_of_mem fun {o o'} ho ho' hlt heq => ?_)
      have hnumber := (sequenceKey_inj (hrows o ho).source (hrows o' ho').source heq).2
      exact absurd hnumber (Nat.ne_of_lt hlt)
    · obtain ⟨row, hrow, rfl⟩ := mem_map.mp hkey
      obtain ⟨o, ho, heq⟩ := mem_map.mp hkey'
      exact (fresh_of_applies hs hb h hown ho hrow).2 heq.symm

/-! ## Runs -/

theorem mem_sortedState : row ∈ (sortedState s).appliedOperations ↔ row ∈ s.appliedOperations :=
  mem_insertionSort _

theorem mem_sortedObjects : x ∈ (sortedState s).objects ↔ x ∈ s.objects := mem_insertionSort _

theorem OwnIds.sorted (h : OwnIds s b) : OwnIds (sortedState s) b :=
  fun o ho row hrow => h o ho row (mem_sortedState.mp hrow)

theorem successor_cases (rt : SyncRuntime) (s : InvestigationSyncDestinationStateV1)
    (b : InvestigationSyncBatchV1) : successor rt s b = s ∨
      (Plannable rt s b ∧ Applies (sortedState s) b ∧
        successor rt s b = appliedState (sortedState s) b b.toCursor) := by
  unfold successor
  cases hplan : planInvestigationSync rt b s with
  | error e => exact .inl rfl
  | ok plan =>
    dsimp only
    obtain ⟨hplannable, houtcome, hafter⟩ := planInvestigationSync_ok hplan
    split
    · rename_i happly
      rw [if_pos happly] at hafter
      exact .inr ⟨hplannable, applies_of_outcome (houtcome ▸ happly), by rw [hafter]⟩
    · exact .inl rfl

theorem appliedOperations_successor {plan : InvestigationSyncPlanV1}
    (hplan : planInvestigationSync rt b s = .ok plan) (happly : plan.outcome = .apply) :
    (successor rt s b).appliedOperations =
      (sortedState s).appliedOperations ++ b.operations.map appliedRow := by
  unfold successor
  rw [hplan]
  dsimp only
  rw [if_pos happly]
  rfl

theorem StateAccepted.successor (hs : StateAccepted s) (hown : OwnIds s b) :
    StateAccepted (successor rt s b) := by
  rcases successor_cases rt s b with hsame | ⟨hplannable, happlies, hsuccessor⟩
  · rw [hsame]
    exact hs
  · rw [hsuccessor]
    exact hs.sorted.applied_state hplannable.batch happlies hown.sorted

structure LaterState (s s' : InvestigationSyncDestinationStateV1) : Prop where
  destination : s'.destinationInstallationId = s.destinationInstallationId
  investigation : s'.investigationId = s.investigationId
  source : s'.checkpoint.sourceInstallationId = s.checkpoint.sourceInstallationId
  checkpoint : s.checkpoint.throughSequence ≤ s'.checkpoint.throughSequence
  applied : ∀ row ∈ s.appliedOperations, row ∈ s'.appliedOperations
  objects : ∀ x ∈ s.objects, ∃ x' ∈ s'.objects, LaterObject x x'

theorem LaterState.refl (s : InvestigationSyncDestinationStateV1) : LaterState s s :=
  ⟨rfl, rfl, rfl, le_rfl, fun _ h => h, fun x hx => ⟨x, hx, .refl x⟩⟩

variable {s' : InvestigationSyncDestinationStateV1}

theorem LaterState.trans {s'' : InvestigationSyncDestinationStateV1} (h : LaterState s s')
    (h' : LaterState s' s'') : LaterState s s'' := by
  refine ⟨h'.destination.trans h.destination, h'.investigation.trans h.investigation,
    h'.source.trans h.source, h.checkpoint.trans h'.checkpoint,
    fun row hrow => h'.applied row (h.applied row hrow), fun x hx => ?_⟩
  obtain ⟨y, hy, hxy⟩ := h.objects x hx
  obtain ⟨z, hz, hyz⟩ := h'.objects y hy
  exact ⟨z, hz, hxy.trans hyz⟩

structure AppliedStep (s : InvestigationSyncDestinationStateV1) (b : InvestigationSyncBatchV1)
    (s' : InvestigationSyncDestinationStateV1) : Prop where
  objects : AdvancesAll (sortedState s).objects b.operations s'.objects
  revisions : ∀ key n, RevisionIs s.objects key n →
    RevisionIs s'.objects key (n + b.operations.countP fun o => o.objectKey = key)
  applied : s'.appliedOperations.Perm (s.appliedOperations ++ b.operations.map appliedRow)
  checkpoint : s'.checkpoint = b.toCursor
  through : s'.checkpoint.throughSequence = s.checkpoint.throughSequence + b.operations.length

theorem appliedStep (h : Plannable rt s b) (happlies : Applies (sortedState s) b) :
    AppliedStep s b (appliedState (sortedState s) b b.toCursor) := by
  have hsorted := h.state.sorted
  have hrows : ∀ o ∈ b.operations, ValidRow rt o.unsigned := fun o ho => (h.batch.chain.valid ho).1
  have hadvances := (applyOperations_advances hsorted.keys hrows happlies.objects).1
  obtain ⟨last, -, hthrough, -, -, hcount⟩ := h.batch.exists_last happlies.nonempty
  refine ⟨hadvances, fun key n hn => ?_, (perm_insertionSort _ _).append_right _, rfl, ?_⟩
  · refine hadvances.revisionIs (keysDiffer_of_nodup hsorted.keys) ?_
    rcases hn with ⟨x, hx, hkey⟩ | ⟨hzero, hnone⟩
    · exact .inl ⟨x, mem_sortedObjects.mpr hx, hkey⟩
    · exact .inr ⟨hzero, fun x hx => hnone x (mem_sortedObjects.mp hx)⟩
  · have hcursor : s.checkpoint = b.fromCursor := happlies.cursor
    rw [hcursor]
    exact hthrough.trans hcount

theorem laterState_successor (rt : SyncRuntime) (s : InvestigationSyncDestinationStateV1)
    (b : InvestigationSyncBatchV1) : LaterState s (successor rt s b) := by
  rcases successor_cases rt s b with hsame | ⟨hplannable, happlies, hsuccessor⟩
  · rw [hsame]
    exact .refl s
  · rw [hsuccessor]
    have hstep := appliedStep hplannable happlies
    have hsource : b.toCursor.sourceInstallationId = s.checkpoint.sourceInstallationId :=
      hplannable.batch.cursorSource.2.trans hplannable.source.symm
    refine ⟨rfl, rfl, hsource, ?_, fun row hrow => ?_, fun x hx => ?_⟩
    · rw [hstep.through]
      exact Nat.le_add_right _ _
    · exact mem_append_left _ (mem_sortedState.mpr hrow)
    · exact hstep.objects.later (keysDiffer_of_nodup hplannable.state.sorted.keys)
        (mem_sortedObjects.mpr hx)

theorem laterState_of_reached (h : Reached (successor rt) OwnIds s s') : LaterState s s' :=
  h.invariant (.refl s) fun s' b hlater _ => hlater.trans (laterState_successor rt s' b)

/-- A batch whose operations have all been applied is a replay. -/
theorem planOutcome_of_applied (hs : StateAccepted s) (hb : BatchAccepted rt b)
    (hne : b.operations ≠ []) (hdestination : s.destinationInstallationId ≠ b.sourceInstallationId)
    (happlied : ∀ o ∈ b.operations, appliedRow o ∈ s.appliedOperations) :
    planOutcome b s = .replay := by
  have hfind : ∀ o ∈ b.operations, appliedById s o = some (appliedRow o) := fun o ho =>
    appliedById_eq hs (happlied o ho) (hb.chain.valid ho).1.source rfl rfl
  have hreplay : exactReplay b s = true := by
    refine decide_eq_true ⟨hne, all_eq_true.mpr fun o ho => ?_⟩
    rw [isReplay, hfind o ho]
    exact decide_eq_true rfl
  have hidentity : ∀ o ∈ b.operations, identityConflicts s o = [] := by
    intro o ho
    have hsequence : ∀ row ∈ appliedBySequence s o, row.operationId = o.operationId := by
      intro row hrow
      obtain ⟨hmem, hkey⟩ := lastWith_some hrow
      rw [inj_on_of_nodup_map hs.sequences hmem (happlied o ho) hkey]
      rfl
    simp only [identityConflicts, hfind o ho, Option.any_some, appliedRow, ne_eq, not_true,
      decide_false, append_eq_nil_iff]
    refine ⟨rfl, ?_⟩
    cases hlookup : appliedBySequence s o with
    | none => rfl
    | some row => simp [hsequence row hlookup]
  have hhistory : historyConflicts b s = [] := by
    simp only [historyConflicts, hreplay, hdestination, if_false, nil_append, Bool.true_eq_false,
      false_and, append_nil]
    exact flatMap_eq_nil_iff.mpr hidentity
  have hconflicts : planConflicts b s = [] := by
    rw [planConflicts, hreplay, if_neg (by simp)]
    exact hhistory
  rw [planOutcome, if_neg (by simpa using hconflicts), if_pos (.inl hreplay)]

theorem replan (h : Plannable rt s b) (happlies : Applies (sortedState s) b)
    (hs' : StateAccepted s') (hlater : LaterState (appliedState (sortedState s) b b.toCursor) s') :
    ∃ later, planInvestigationSync rt b s' = .ok later ∧ later.outcome = .replay ∧
      later.checkpointAfter = s'.checkpoint := by
  have hplannable : Plannable rt s' b := by
    refine ⟨h.batch, hs', hlater.investigation.trans h.investigation, ?_⟩
    exact hlater.source.trans h.batch.cursorSource.2
  obtain ⟨later, hplan⟩ := exists_plan hplannable
  obtain ⟨-, houtcome, hafter⟩ := planInvestigationSync_ok hplan
  have hreplay : later.outcome = .replay := by
    rw [houtcome]
    refine planOutcome_of_applied hs'.sorted h.batch happlies.nonempty ?_ fun o ho => ?_
    · exact hlater.destination ▸ happlies.source
    · refine mem_sortedState.mpr (hlater.applied _ (mem_append_right _ ?_))
      exact mem_map_of_mem ho
  refine ⟨later, hplan, hreplay, ?_⟩
  rw [hafter, hreplay]
  exact if_neg (by decide)

end

/-- On a run whose batches use only ids of their own source, every state is accepted, no id and no
sequence is applied twice, nothing is taken back, an applied batch advances each object by one
revision for each of its operations, and planning it again is a replay. -/
theorem sync_runs (rt : SyncRuntime) {s₀ s : InvestigationSyncDestinationStateV1}
    (h₀ : ∃ d, parseInvestigationSyncDestinationState s₀ = .ok d)
    (hrun : Reached (successor rt) OwnIds s₀ s) :
    (∃ d, parseInvestigationSyncDestinationState s = .ok d) ∧
    (s.appliedOperations.map (·.operationId)).Nodup ∧
    (s.appliedOperations.map fun row => (row.sourceInstallationId, row.sourceSequence)).Nodup ∧
    (∀ s', Reached (successor rt) OwnIds s s' → LaterState s s') ∧
    ∀ b plan, planInvestigationSync rt b s = .ok plan → OwnIds s b →
      (plan.outcome ≠ .apply → successor rt s b = s) ∧
      (plan.outcome = .apply → AppliedStep s b (successor rt s b) ∧
        ∀ s', Reached (successor rt) OwnIds (successor rt s b) s' →
          ∃ later, planInvestigationSync rt b s' = .ok later ∧ later.outcome = .replay ∧
            later.checkpointAfter = s'.checkpoint) := by
  obtain ⟨_, hd⟩ := h₀
  have hs₀ := (parseInvestigationSyncDestinationState_ok.mp hd).1
  have haccepted : ∀ {t t'}, StateAccepted t → Reached (successor rt) OwnIds t t' →
      StateAccepted t' := fun ht h => h.invariant ht fun _ _ hs hown => hs.successor hown
  have hs := haccepted hs₀ hrun
  refine ⟨⟨_, parseInvestigationSyncDestinationState_ok.mpr ⟨hs, rfl⟩⟩, hs.ids, ?_,
    fun s' h => laterState_of_reached h, fun b plan hplan hown => ⟨fun hne => ?_, fun happly => ?_⟩⟩
  · refine pairwise_map.mpr ((pairwise_map.mp hs.sequences).imp fun hne heq => hne ?_)
    obtain ⟨hsource, hsequence⟩ := Prod.mk.inj heq
    show sequenceKey _ _ = sequenceKey _ _
    rw [hsource, hsequence]
  · unfold successor
    rw [hplan]
    exact if_neg hne
  · obtain ⟨hplannable, houtcome, hafter⟩ := planInvestigationSync_ok hplan
    have happlies := applies_of_outcome (houtcome ▸ happly)
    have hsuccessor : successor rt s b = appliedState (sortedState s) b b.toCursor := by
      unfold successor
      rw [hplan]
      dsimp only
      rw [if_pos happly, hafter, if_pos happly]
    have hstep : StateAccepted (successor rt s b) := hs.successor hown
    rw [hsuccessor] at hstep ⊢
    exact ⟨appliedStep hplannable happlies, fun s' h =>
      replan hplannable happlies (haccepted hstep h) (laterState_of_reached h)⟩

/-- A destination of the sample batch, with what it has applied. -/
def sampleState (applied : List AppliedSyncOperationV1) : InvestigationSyncDestinationStateV1 where
  destinationInstallationId := JsString.ofString "inst-bbbbbbbb"
  investigationId := JsString.ofString "case-1"
  checkpoint := sampleUnsigned.fromCursor
  acceptedPrivacyClasses := [.share_safe]
  objects := []
  appliedOperations := applied

/-- The id of the sample operation, used by another source. -/
def foreignRow : AppliedSyncOperationV1 :=
  ⟨JsString.ofString "syncop-aaaaaaaaaaaa", hexText 1 64, JsString.ofString "inst-cccccccc", 1⟩

theorem plan_sample (applied : List AppliedSyncOperationV1)
    (hstate : (parseInvestigationSyncDestinationState (sampleState applied)).toOption.isSome = true)
    (houtcome : planOutcome sampleBatch (sortedState (sampleState applied)) = .apply) :
    ∃ plan, planInvestigationSync sampleRuntime sampleBatch (sampleState applied) = .ok plan ∧
      plan.outcome = .apply := by
  cases hparse : parseInvestigationSyncDestinationState (sampleState applied) with
  | error e =>
    rw [hparse] at hstate
    cases hstate
  | ok d =>
    have hplannable : Plannable sampleRuntime (sampleState applied) sampleBatch :=
      ⟨sampleBatch_accepted, (parseInvestigationSyncDestinationState_ok.mp hparse).1, rfl, rfl⟩
    obtain ⟨plan, hplan⟩ := exists_plan hplannable
    exact ⟨plan, hplan, (planInvestigationSync_ok hplan).2.1.trans houtcome⟩

theorem sync_runs_sample :
    ∃ plan, planInvestigationSync sampleRuntime sampleBatch (sampleState []) = .ok plan ∧
      plan.outcome = .apply ∧
      ∃ later, planInvestigationSync sampleRuntime sampleBatch
          (successor sampleRuntime (sampleState []) sampleBatch) = .ok later ∧
        later.outcome = .replay := by
  obtain ⟨plan, hplan, happly⟩ := plan_sample [] (by decide +kernel) (by decide +kernel)
  have hstate := (planInvestigationSync_ok hplan).1.state
  obtain ⟨-, -, -, -, hlaws⟩ := sync_runs sampleRuntime
    ⟨_, parseInvestigationSyncDestinationState_ok.mpr ⟨hstate, rfl⟩⟩ .start
  obtain ⟨-, hreplan⟩ := hlaws sampleBatch plan hplan fun _ _ _ hrow => absurd hrow not_mem_nil
  obtain ⟨later, hlater, hreplay, -⟩ := (hreplan happly).2 _ .start
  exact ⟨plan, hplan, happly, later, hlater, hreplay⟩

/-- From an accepted state, the sample batch is applied although another source has used its id:
the id is then applied twice, and the state is not accepted. -/
theorem foreign_id_applied_twice :
    (∃ d, parseInvestigationSyncDestinationState (sampleState [foreignRow]) = .ok d) ∧
    ¬ ((successor sampleRuntime (sampleState [foreignRow]) sampleBatch).appliedOperations.map
      (·.operationId)).Nodup ∧
    ¬ ∃ d, parseInvestigationSyncDestinationState
      (successor sampleRuntime (sampleState [foreignRow]) sampleBatch) = .ok d := by
  obtain ⟨plan, hplan, happly⟩ := plan_sample [foreignRow] (by decide +kernel) (by decide +kernel)
  obtain ⟨hplannable, -, -⟩ := planInvestigationSync_ok hplan
  have hids : ¬ ((successor sampleRuntime (sampleState [foreignRow]) sampleBatch).appliedOperations.map
      (·.operationId)).Nodup := by
    rw [appliedOperations_successor hplan happly]
    decide +kernel
  refine ⟨⟨_, parseInvestigationSyncDestinationState_ok.mpr ⟨hplannable.state, rfl⟩⟩, hids, ?_⟩
  rintro ⟨d, hd⟩
  exact hids (parseInvestigationSyncDestinationState_ok.mp hd).1.ids

end ContextDesk
