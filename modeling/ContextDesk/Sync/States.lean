import ContextDesk.Sync.Accepted

/-!
# Accepted states of a destination

`StateAccepted` does not depend on the order of the lists, so what the parser returns, the state
with its lists sorted, is accepted again and returned as it is (`parse_sorted`).
-/

namespace ContextDesk

open Lib List

/-! ## The order of keys -/

section

variable {α : Type} (key : α → JsString)

theorem sorted_keyLe (l : List α) : (l.insertionSort (keyLe key)).Pairwise (keyLe key) := by
  have htotal : Std.Total (keyLe key) := ⟨fun a b => codeUnitsLe_total (key a) (key b)⟩
  have htrans : IsTrans α (keyLe key) := ⟨fun _ _ _ => codeUnitsLe_trans⟩
  exact pairwise_insertionSort (keyLe key) l

theorem sort_sort (l : List α) :
    (l.insertionSort (keyLe key)).insertionSort (keyLe key) = l.insertionSort (keyLe key) :=
  (sorted_keyLe key l).insertionSort_eq

end

/-! ## Keys joined with NUL -/

theorem joinKey_inj {a b a' b' : JsString} (ha : (0 : UInt16) ∉ a) (ha' : (0 : UInt16) ∉ a')
    (h : joinKey a b = joinKey a' b') : a = a' ∧ b = b' := by
  have hfront : ∀ c d : JsString, (0 : UInt16) ∉ c →
      (joinKey c d).takeWhile (fun u => u != 0) = c := by
    intro c d hc
    have hall : ∀ u ∈ c, (u != 0) = true := by
      intro u hu
      rw [bne_iff_ne]
      rintro rfl
      exact hc hu
    rw [joinKey, takeWhile_append_of_pos hall]
    simp
  have heq : a = a' := by rw [← hfront a b ha, h, hfront a' b' ha']
  subst heq
  exact ⟨rfl, (cons.inj (append_cancel_left h)).2⟩

theorem zero_of_startsAndRest {start : String} {rest : JsString → Bool} {s : JsString}
    (h : startsAndRest start rest s = true) (hstart : (0 : UInt16) ∉ JsString.ofString start)
    (hlength : (JsString.ofString start).length = start.length)
    (hrest : ∀ t, rest t = true → (0 : UInt16) ∉ t) : (0 : UInt16) ∉ s := by
  rw [startsAndRest, Bool.and_eq_true, List.isPrefixOf_iff_prefix] at h
  obtain ⟨⟨t, rfl⟩, htail⟩ := h
  rw [← hlength, drop_left] at htail
  rw [mem_append]
  rintro (hmem | hmem)
  · exact hstart hmem
  · exact hrest t htail hmem

theorem zero_of_installationId {s : JsString} (h : isInstallationId s = true) :
    (0 : UInt16) ∉ s := by
  refine zero_of_startsAndRest h (by decide) (by decide) fun t ht hmem => ?_
  simp only [Bool.and_eq_true, all_eq_true] at ht
  exact absurd (ht.2 0 hmem) (by decide)

theorem kindText_inj {k k' : SyncObjectKind}
    (h : JsString.ofString (SyncObjectKind.text k) = JsString.ofString (SyncObjectKind.text k')) :
    k = k' := by
  have hall : ∀ kind kind' : PortableObjectKind, JsString.ofString kind.text =
      JsString.ofString kind'.text → kind = kind' := by
    intro kind kind'
    cases kind <;> cases kind' <;> decide
  exact Subtype.ext (hall _ _ h)

/-! ## The loops -/

structure ValidObject (o : SyncDestinationObjectV1) : Prop where
  source : isInstallationId o.sourceInstallationId = true
  objectId : isOpaqueId o.objectId = true
  revision : 1 ≤ o.revision
  hash : ∃ hash, o.objectHash = some hash ∧ isSha256Hex hash = true

theorem checkObjects_ok {index : Nat} {keys : List JsString} {objects : List SyncDestinationObjectV1} :
    checkObjects index keys objects = .ok () ↔ (∀ o ∈ objects, ValidObject o) ∧
      (objects.map (·.key)).Nodup ∧ ∀ o ∈ objects, o.key ∉ keys := by
  induction objects generalizing index keys with
  | nil => simp [checkObjects]
  | cons o objects ih =>
    simp only [checkObjects, requireInstallationId, requireOpaqueId, requireSha256, bind_ok,
      ensure_ok, require_ok, exists_unit, ih, map_cons, nodup_cons,
      mem_map, not_exists, not_and, mem_cons, not_or, forall_eq_or_imp]
    constructor
    · rintro ⟨hsource, hid, hkey, hrevision, hash, hhash, hhex, hvalid, hnodup, hfresh⟩
      exact ⟨⟨⟨hsource, hid, hrevision, hash, hhash, hhex⟩, hvalid⟩,
        ⟨fun o' ho' heq => (hfresh o' ho').1 heq, hnodup⟩, hkey, fun o' ho' => (hfresh o' ho').2⟩
    · rintro ⟨⟨⟨hsource, hid, hrevision, hash, hhash, hhex⟩, hvalid⟩, ⟨hne, hnodup⟩, hkey, hfresh⟩
      exact ⟨hsource, hid, hkey, hrevision, hash, hhash, hhex, hvalid, hnodup,
        fun o' ho' => ⟨hne o' ho', hfresh o' ho'⟩⟩

def AppliedSyncOperationV1.sequenceKey (o : AppliedSyncOperationV1) : JsString :=
  ContextDesk.sequenceKey o.sourceInstallationId o.sourceSequence

structure ValidApplied (o : AppliedSyncOperationV1) : Prop where
  operationId : isOperationId o.operationId = true
  source : isInstallationId o.sourceInstallationId = true
  fingerprint : isSha256Hex o.operationFingerprint = true
  sequence : 1 ≤ o.sourceSequence

theorem checkAppliedOperations_ok {index : Nat} {ids sequences : List JsString}
    {operations : List AppliedSyncOperationV1} :
    checkAppliedOperations index ids sequences operations = .ok () ↔
      (∀ o ∈ operations, ValidApplied o) ∧
      ((operations.map (·.operationId)).Nodup ∧ ∀ o ∈ operations, o.operationId ∉ ids) ∧
      (operations.map (·.sequenceKey)).Nodup ∧ ∀ o ∈ operations, o.sequenceKey ∉ sequences := by
  induction operations generalizing index ids sequences with
  | nil => simp [checkAppliedOperations]
  | cons o operations ih =>
    simp only [checkAppliedOperations, requireInstallationId, requireOperationId, requireSha256,
      bind_ok, ensure_ok, exists_unit, ih, map_cons, nodup_cons,
      mem_map, not_exists, not_and, mem_cons, not_or, forall_eq_or_imp]
    constructor
    · rintro ⟨hid, hsource, hfingerprint, hsequence, hidFresh, hsequenceFresh, hvalid,
        ⟨hids, hidsFresh⟩, hsequences, hsequencesFresh⟩
      exact ⟨⟨⟨hid, hsource, hfingerprint, hsequence⟩, hvalid⟩,
        ⟨⟨fun o' ho' heq => (hidsFresh o' ho').1 heq, hids⟩, hidFresh,
          fun o' ho' => (hidsFresh o' ho').2⟩,
        ⟨fun o' ho' heq => (hsequencesFresh o' ho').1 heq, hsequences⟩, hsequenceFresh,
          fun o' ho' => (hsequencesFresh o' ho').2⟩
    · rintro ⟨⟨⟨hid, hsource, hfingerprint, hsequence⟩, hvalid⟩,
        ⟨⟨hidNe, hids⟩, hidFresh, hidsFresh⟩, ⟨hsequenceNe, hsequences⟩, hsequenceFresh,
        hsequencesFresh⟩
      exact ⟨hid, hsource, hfingerprint, hsequence, hidFresh, hsequenceFresh, hvalid,
        ⟨hids, fun o' ho' => ⟨hidNe o' ho', hidsFresh o' ho'⟩⟩, hsequences,
        fun o' ho' => ⟨hsequenceNe o' ho', hsequencesFresh o' ho'⟩⟩

/-! ## The state -/

/-- The last operation of the source of the checkpoint is the one that it names. -/
structure CheckpointBound (checkpoint : InvestigationSyncCursorV1)
    (applied : List AppliedSyncOperationV1) : Prop where
  within : ∀ row ∈ applied, row.sourceInstallationId = checkpoint.sourceInstallationId →
    row.sourceSequence ≤ checkpoint.throughSequence
  tip : 0 < checkpoint.throughSequence → ∃ row ∈ applied,
    row.sourceInstallationId = checkpoint.sourceInstallationId ∧
    row.sourceSequence = checkpoint.throughSequence ∧
    checkpoint.lastOperationId = some row.operationId ∧
    checkpoint.lastOperationFingerprint = some row.operationFingerprint

variable {s : InvestigationSyncDestinationStateV1}

theorem checkCheckpoint_ok (hsequences : (s.appliedOperations.map (·.sequenceKey)).Nodup) :
    checkCheckpoint s = .ok () ↔ CheckpointBound s.checkpoint s.appliedOperations := by
  have hwithin : ((s.appliedOperations.filter fun row =>
      row.sourceInstallationId = s.checkpoint.sourceInstallationId).any fun row =>
      s.checkpoint.throughSequence < row.sourceSequence) = false ↔
      ∀ row ∈ s.appliedOperations, row.sourceInstallationId = s.checkpoint.sourceInstallationId →
        row.sourceSequence ≤ s.checkpoint.throughSequence := by
    simp [any_eq_false]
  simp only [checkCheckpoint, bind_ok, ensure_ok, exists_unit, hwithin]
  constructor
  · rintro ⟨hle, htip⟩
    refine ⟨hle, fun hpos => ?_⟩
    rw [if_pos hpos, ensure_ok] at htip
    obtain ⟨hsome, hid, hfingerprint⟩ := htip
    obtain ⟨row, hrow⟩ := Option.isSome_iff_exists.mp hsome
    rw [hrow, Option.map_some] at hid hfingerprint
    have hmem := mem_filter.mp (mem_of_find?_eq_some hrow)
    have hsequence : row.sourceSequence = s.checkpoint.throughSequence := by
      simpa using find?_some hrow
    exact ⟨row, hmem.1, of_decide_eq_true hmem.2, hsequence, hid.symm, hfingerprint.symm⟩
  · intro h
    refine ⟨h.within, ?_⟩
    split
    · rename_i hpos
      obtain ⟨row, hrow, hsource, hsequence, hid, hfingerprint⟩ := h.tip hpos
      have hfind : ((s.appliedOperations.filter fun row =>
          row.sourceInstallationId = s.checkpoint.sourceInstallationId).find? fun row =>
          row.sourceSequence = s.checkpoint.throughSequence) = some row := by
        cases hfind : ((s.appliedOperations.filter fun row =>
            row.sourceInstallationId = s.checkpoint.sourceInstallationId).find? fun row =>
            row.sourceSequence = s.checkpoint.throughSequence) with
        | none =>
          have hnone := find?_eq_none.mp hfind row
            (mem_filter.mpr ⟨hrow, decide_eq_true hsource⟩)
          exact absurd (decide_eq_true hsequence) hnone
        | some row' =>
          have hmem := mem_filter.mp (mem_of_find?_eq_some hfind)
          have hsource' := of_decide_eq_true hmem.2
          have hsequence' : row'.sourceSequence = s.checkpoint.throughSequence := by
            simpa using find?_some hfind
          have hkey : row'.sequenceKey = row.sequenceKey := by
            unfold AppliedSyncOperationV1.sequenceKey
            rw [hsource', hsequence', ← hsource, ← hsequence]
          rw [inj_on_of_nodup_map hsequences hmem.1 hrow hkey]
      rw [hfind, ensure_ok]
      exact ⟨rfl, hid.symm, hfingerprint.symm⟩
    · rfl

structure ObjectRowShape (o : SyncDestinationObjectV1) : Prop where
  source : 1 ≤ o.sourceInstallationId.length
  objectId : 1 ≤ o.objectId.length
  revision : Safe o.revision

structure AppliedRowShape (o : AppliedSyncOperationV1) : Prop where
  operationId : 1 ≤ o.operationId.length
  source : 1 ≤ o.sourceInstallationId.length
  sequence : Safe o.sourceSequence

structure StateShape (s : InvestigationSyncDestinationStateV1) : Prop where
  destination : 1 ≤ s.destinationInstallationId.length
  investigation : 1 ≤ s.investigationId.length
  checkpoint : CursorShape s.checkpoint
  objects : ∀ o ∈ s.objects, ObjectRowShape o
  applied : ∀ o ∈ s.appliedOperations, AppliedRowShape o

theorem state_checkShape_ok : s.checkShape = .ok () ↔ StateShape s := by
  have hobjects : checkEach "$.objects" SyncDestinationObjectV1.checkShape 0 s.objects = .ok () ↔
      ∀ o ∈ s.objects, ObjectRowShape o := by
    refine checkEach_ok (P := ObjectRowShape) (fun path o => ?_) 0 s.objects
    simp only [SyncDestinationObjectV1.checkShape, checkNstr, checkU64, bind_ok, ensure_ok,
      exists_unit]
    exact ⟨fun ⟨h1, h2, h3⟩ => ⟨h1, h2, h3⟩, fun h => ⟨h.source, h.objectId, h.revision⟩⟩
  have happlied : checkEach "$.appliedOperations" AppliedSyncOperationV1.checkShape 0
      s.appliedOperations = .ok () ↔ ∀ o ∈ s.appliedOperations, AppliedRowShape o := by
    refine checkEach_ok (P := AppliedRowShape) (fun path o => ?_) 0 s.appliedOperations
    simp only [AppliedSyncOperationV1.checkShape, checkNstr, checkU64, bind_ok, ensure_ok,
      exists_unit]
    exact ⟨fun ⟨h1, h2, h3⟩ => ⟨h1, h2, h3⟩, fun h => ⟨h.operationId, h.source, h.sequence⟩⟩
  simp only [InvestigationSyncDestinationStateV1.checkShape, checkNstr, bind_ok, ensure_ok,
    exists_unit, cursor_checkShape_ok, hobjects, happlied]
  exact ⟨fun ⟨h1, h2, h3, h4, h5⟩ => ⟨h1, h2, h3, h4, h5⟩,
    fun h => ⟨h.destination, h.investigation, h.checkpoint, h.objects, h.applied⟩⟩

def ObjectFree (o : SyncDestinationObjectV1) : Prop :=
  FORBIDDEN_VALUE_RE.test o.sourceInstallationId = false ∧
    FORBIDDEN_VALUE_RE.test o.objectId = false ∧
    ∀ hash ∈ o.objectHash, FORBIDDEN_VALUE_RE.test hash = false

def AppliedFree (o : AppliedSyncOperationV1) : Prop :=
  FORBIDDEN_VALUE_RE.test o.operationId = false ∧
    FORBIDDEN_VALUE_RE.test o.operationFingerprint = false ∧
    FORBIDDEN_VALUE_RE.test o.sourceInstallationId = false

structure StateFree (s : InvestigationSyncDestinationStateV1) : Prop where
  destination : FORBIDDEN_VALUE_RE.test s.destinationInstallationId = false
  investigation : FORBIDDEN_VALUE_RE.test s.investigationId = false
  checkpoint : CredentialFree s.checkpoint.toJson
  objects : ∀ o ∈ s.objects, ObjectFree o
  applied : ∀ o ∈ s.appliedOperations, AppliedFree o

theorem object_free {o : SyncDestinationObjectV1} : CredentialFree o.toJson ↔ ObjectFree o := by
  rw [SyncDestinationObjectV1.toJson, credentialFree_record ["sourceInstallationId", "kind",
    "objectId", "revision", "objectHash", "privacyClass", "tombstoned"] rfl (by simp [RECORD_KEYS])]
  simp only [map_cons, map_nil, forall_mem_cons, CredentialFree, jsonNat, jsonText,
    TextRules.passes_jsonNullable, TextRules.Passes]
  exact ⟨fun h => ⟨h.1, h.2.2.1, h.2.2.2.2.1⟩, fun h => ⟨h.1, free_kind o.kind, h.2.1, trivial, h.2.2,
    free_privacy o.privacyClass, trivial, fun _ hmem => absurd hmem not_mem_nil⟩⟩

theorem applied_free {o : AppliedSyncOperationV1} : CredentialFree o.toJson ↔ AppliedFree o := by
  rw [AppliedSyncOperationV1.toJson, credentialFree_record ["operationId", "operationFingerprint",
    "sourceInstallationId", "sourceSequence"] rfl (by simp [RECORD_KEYS])]
  simp only [map_cons, map_nil, forall_mem_cons, CredentialFree, jsonNat,
    TextRules.Passes]
  exact ⟨fun h => ⟨h.1, h.2.1, h.2.2.1⟩, fun h => ⟨h.1, h.2.1, h.2.2, trivial,
    fun _ hmem => absurd hmem not_mem_nil⟩⟩

theorem state_free : CredentialFree s.toJson ↔ StateFree s := by
  have hobjects : CREDENTIAL_RULES.Passes (.array (s.objects.map (·.toJson))) ↔
      ∀ o ∈ s.objects, ObjectFree o := by
    rw [TextRules.Passes, TextRules.passesItems_map]
    exact forall₂_congr fun _ _ => object_free
  have happlied : CREDENTIAL_RULES.Passes (.array (s.appliedOperations.map (·.toJson))) ↔
      ∀ o ∈ s.appliedOperations, AppliedFree o := by
    rw [TextRules.Passes, TextRules.passesItems_map]
    exact forall₂_congr fun _ _ => applied_free
  have hclasses : CREDENTIAL_RULES.Passes
      (.array (s.acceptedPrivacyClasses.map fun c => jsonText c.text)) := by
    rw [TextRules.Passes, TextRules.passesItems_map]
    exact fun c _ => free_privacy c
  have hschema : CREDENTIAL_RULES.Passes (jsonText INVESTIGATION_SYNC_STATE_SCHEMA_ID) := by
    show FreeText _
    decide +kernel
  rw [InvestigationSyncDestinationStateV1.toJson, credentialFree_record ["schemaId",
    "destinationInstallationId", "investigationId", "checkpoint", "acceptedPrivacyClasses", "objects",
    "appliedOperations"] rfl (by simp [RECORD_KEYS])]
  simp only [map_cons, map_nil, forall_mem_cons, CredentialFree, hobjects, happlied]
  constructor
  · rintro ⟨-, hdestination, hinvestigation, hcheckpoint, -, hobjects, happlied, -⟩
    exact ⟨hdestination, hinvestigation, hcheckpoint, hobjects, happlied⟩
  · intro h
    exact ⟨hschema, h.destination, h.investigation, h.checkpoint, hclasses, h.objects, h.applied,
      fun _ hmem => absurd hmem not_mem_nil⟩

/-- What `parseInvestigationSyncDestinationState` accepts. -/
structure StateAccepted (s : InvestigationSyncDestinationStateV1) : Prop where
  shape : StateShape s
  free : StateFree s
  destination : isInstallationId s.destinationInstallationId = true
  cursor : ValidCursor s.checkpoint
  investigation : isOpaqueId s.investigationId = true
  classes : s.acceptedPrivacyClasses ≠ []
  classesNodup : s.acceptedPrivacyClasses.Nodup
  objects : ∀ o ∈ s.objects, ValidObject o
  keys : (s.objects.map (·.key)).Nodup
  applied : ∀ o ∈ s.appliedOperations, ValidApplied o
  ids : (s.appliedOperations.map (·.operationId)).Nodup
  sequences : (s.appliedOperations.map (·.sequenceKey)).Nodup
  bound : CheckpointBound s.checkpoint s.appliedOperations

/-- The state with its lists in the order of their keys. -/
def sortedState (s : InvestigationSyncDestinationStateV1) : InvestigationSyncDestinationStateV1 :=
  { s with
    acceptedPrivacyClasses := s.acceptedPrivacyClasses.insertionSort
      (keyLe fun c => JsString.ofString c.text)
    objects := s.objects.insertionSort (keyLe SyncDestinationObjectV1.key)
    appliedOperations := s.appliedOperations.insertionSort (keyLe AppliedSyncOperationV1.sortKey) }

theorem parseInvestigationSyncDestinationState_ok {d : InvestigationSyncDestinationStateV1} :
    parseInvestigationSyncDestinationState s = .ok d ↔ StateAccepted s ∧ d = sortedState s := by
  simp only [parseInvestigationSyncDestinationState, bind_ok, ensure_ok, exists_unit,
    state_checkShape_ok, assertNoCredentialLeakage_ok, state_free, requireInstallationId,
    validateCursor_ok, requireOpaqueId, checkObjects_ok, checkAppliedOperations_ok, pure_ok]
  constructor
  · rintro ⟨hshape, hfree, hdestination, hcursor, hinvestigation, hclasses, hnodup,
      ⟨hobjects, hkeys, -⟩, ⟨happlied, ⟨hids, -⟩, hsequences, -⟩, hbound, rfl⟩
    exact ⟨⟨hshape, hfree, hdestination, hcursor, hinvestigation, hclasses, hnodup, hobjects, hkeys,
      happlied, hids, hsequences, (checkCheckpoint_ok hsequences).mp hbound⟩, rfl⟩
  · rintro ⟨h, rfl⟩
    exact ⟨h.shape, h.free, h.destination, h.cursor, h.investigation, h.classes, h.classesNodup,
      ⟨h.objects, h.keys, fun _ _ => not_mem_nil⟩,
      ⟨h.applied, ⟨h.ids, fun _ _ => not_mem_nil⟩, h.sequences, fun _ _ => not_mem_nil⟩,
      (checkCheckpoint_ok h.sequences).mpr h.bound, rfl⟩

/-- The order of the lists does not matter. -/
theorem StateAccepted.perm {s' : InvestigationSyncDestinationStateV1} (h : StateAccepted s)
    (hdestination : s'.destinationInstallationId = s.destinationInstallationId)
    (hinvestigation : s'.investigationId = s.investigationId)
    (hcheckpoint : s'.checkpoint = s.checkpoint)
    (hclasses : s'.acceptedPrivacyClasses.Perm s.acceptedPrivacyClasses)
    (hobjects : s'.objects.Perm s.objects)
    (happlied : s'.appliedOperations.Perm s.appliedOperations) : StateAccepted s' where
  shape := by
    refine ⟨?_, ?_, ?_, fun o ho => h.shape.objects o (hobjects.mem_iff.mp ho),
      fun o ho => h.shape.applied o (happlied.mem_iff.mp ho)⟩
    · rw [hdestination]
      exact h.shape.destination
    · rw [hinvestigation]
      exact h.shape.investigation
    · rw [hcheckpoint]
      exact h.shape.checkpoint
  free := by
    refine ⟨?_, ?_, ?_, fun o ho => h.free.objects o (hobjects.mem_iff.mp ho),
      fun o ho => h.free.applied o (happlied.mem_iff.mp ho)⟩
    · rw [hdestination]
      exact h.free.destination
    · rw [hinvestigation]
      exact h.free.investigation
    · rw [hcheckpoint]
      exact h.free.checkpoint
  destination := by
    rw [hdestination]
    exact h.destination
  cursor := by
    rw [hcheckpoint]
    exact h.cursor
  investigation := by
    rw [hinvestigation]
    exact h.investigation
  classes := fun hnil => h.classes (perm_nil.mp (hnil ▸ hclasses.symm))
  classesNodup := hclasses.nodup_iff.mpr h.classesNodup
  objects o ho := h.objects o (hobjects.mem_iff.mp ho)
  keys := (hobjects.map _).nodup_iff.mpr h.keys
  applied o ho := h.applied o (happlied.mem_iff.mp ho)
  ids := (happlied.map _).nodup_iff.mpr h.ids
  sequences := (happlied.map _).nodup_iff.mpr h.sequences
  bound := by
    rw [hcheckpoint]
    refine ⟨fun row hrow => h.bound.within row (happlied.mem_iff.mp hrow), fun hpos => ?_⟩
    obtain ⟨row, hrow, hrest⟩ := h.bound.tip hpos
    exact ⟨row, happlied.mem_iff.mpr hrow, hrest⟩

theorem StateAccepted.sorted (h : StateAccepted s) : StateAccepted (sortedState s) :=
  h.perm rfl rfl rfl (perm_insertionSort _ _) (perm_insertionSort _ _)
    (perm_insertionSort _ _)

theorem parse_sorted (h : StateAccepted s) :
    parseInvestigationSyncDestinationState (sortedState s) = .ok (sortedState s) := by
  refine parseInvestigationSyncDestinationState_ok.mpr ⟨h.sorted, ?_⟩
  have hclasses := sort_sort (fun c : PrivacyClass => JsString.ofString c.text)
    s.acceptedPrivacyClasses
  have hobjects := sort_sort SyncDestinationObjectV1.key s.objects
  have happlied := sort_sort AppliedSyncOperationV1.sortKey s.appliedOperations
  unfold sortedState
  dsimp only
  rw [hclasses, hobjects, happlied]

end ContextDesk
