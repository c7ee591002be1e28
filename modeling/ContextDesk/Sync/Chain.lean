import ContextDesk.Sync.States

/-!
# The chain of a batch

`attachInvestigationSyncIntegrity` builds what `parseInvestigationSyncBatch` accepts, in whatever
order the operations are given, when they are the batch's own and no text is a credential; the
validity of the single fields is not enough (`foreign_source_refused`). The fingerprint behind the
last operation then stands for all the operations between the cursors: it covers every field of the
operation and the fingerprint before it.
-/

namespace ContextDesk

open Lib List

/-! ## What an unsigned batch needs -/

structure FieldsValid (rt : SyncRuntime) (u : InvestigationSyncBatchUnsignedV1) : Prop where
  source : isInstallationId u.sourceInstallationId = true
  investigation : isOpaqueId u.investigationId = true
  fromCursor : ValidCursor u.fromCursor
  through : CursorShape u.fromCursor
  rows : ∀ o ∈ u.operations, ValidRow rt o ∧ OperationShape o

/-- The cursor and the operations are of the installation and the investigation of the batch. -/
structure Belongs (u : InvestigationSyncBatchUnsignedV1) : Prop where
  cursor : u.fromCursor.sourceInstallationId = u.sourceInstallationId
  rows : ∀ o ∈ u.operations, o.sourceInstallationId = u.sourceInstallationId ∧
    o.investigationId = u.investigationId

structure TextsFree (u : InvestigationSyncBatchUnsignedV1) : Prop where
  source : FORBIDDEN_VALUE_RE.test u.sourceInstallationId = false
  investigation : FORBIDDEN_VALUE_RE.test u.investigationId = false
  fromCursor : CredentialFree u.fromCursor.toJson
  rows : ∀ o ∈ u.operations, RowFree o

/-- In the order of their sequences the operations have different ids and follow the cursor. -/
def Contiguous (u : InvestigationSyncBatchUnsignedV1) : Prop :=
  ((u.operations.insertionSort sequenceLe).map (·.operationId)).Nodup ∧
    (u.operations.insertionSort sequenceLe).map (·.sourceSequence) =
      List.range' (u.fromCursor.throughSequence + 1) u.operations.length

instance (u : InvestigationSyncBatchUnsignedV1) : Decidable (Contiguous u) :=
  inferInstanceAs (Decidable (_ ∧ _))

/-! ## The attached batch is accepted -/

theorem cursor_free {c : InvestigationSyncCursorV1} : CredentialFree c.toJson ↔
    FORBIDDEN_VALUE_RE.test c.sourceInstallationId = false ∧
      (∀ id ∈ c.lastOperationId, FORBIDDEN_VALUE_RE.test id = false) ∧
      ∀ fingerprint ∈ c.lastOperationFingerprint, FORBIDDEN_VALUE_RE.test fingerprint = false := by
  rw [InvestigationSyncCursorV1.toJson, credentialFree_record ["sourceInstallationId",
    "throughSequence", "lastOperationId", "lastOperationFingerprint"] rfl (by simp [RECORD_KEYS])]
  simp only [map_cons, map_nil, forall_mem_cons, CredentialFree, jsonNat,
    TextRules.passes_jsonNullable, TextRules.Passes]
  exact ⟨fun h => ⟨h.1, h.2.2.1, h.2.2.2.1⟩, fun h => ⟨h.1, trivial, h.2.1, h.2.2,
    fun _ hmem => absurd hmem not_mem_nil⟩⟩

section

variable {rt : SyncRuntime} {u : InvestigationSyncBatchUnsignedV1}

theorem chainOperation_fingerprint (previous : Option JsString)
    (o : InvestigationSyncOperationUnsignedV1) :
    investigationSyncOperationFingerprint rt (chainOperation rt previous o) =
      (chainOperation rt previous o).operationFingerprint := rfl

theorem map_unsigned_chainOperations (previous : Option JsString)
    (rows : List InvestigationSyncOperationUnsignedV1) :
    (chainOperations rt previous rows).map (·.unsigned) = rows := by
  induction rows generalizing previous with
  | nil => rfl
  | cons row rows ih => rw [chainOperations, map_cons, ih]; rfl

theorem chained_chainOperations {b : InvestigationSyncBatchV1}
    {rows : List InvestigationSyncOperationUnsignedV1} {expected : Nat}
    {previous : Option JsString} {ids : List JsString}
    (hrows : ∀ o ∈ rows, ValidRow rt o ∧ o.sourceInstallationId = b.sourceInstallationId ∧
      o.investigationId = b.investigationId)
    (hsequences : rows.map (·.sourceSequence) = List.range' expected rows.length)
    (hnodup : (rows.map (·.operationId)).Nodup) (hfresh : ∀ o ∈ rows, o.operationId ∉ ids) :
    Chained rt b expected previous ids (chainOperations rt previous rows) := by
  induction rows generalizing expected previous ids with
  | nil => trivial
  | cons row rows ih =>
    rw [map_cons, length_cons, range'_succ, cons.injEq] at hsequences
    rw [map_cons, nodup_cons] at hnodup
    obtain ⟨hvalid, hsource, hinvestigation⟩ := hrows row mem_cons_self
    refine ⟨⟨hvalid, chainOperation_fingerprint previous row⟩, hsource, hinvestigation,
      hsequences.1, rfl, hfresh row mem_cons_self, ?_⟩
    refine ih (fun o ho => hrows o (mem_cons_of_mem _ ho)) hsequences.2 hnodup.2 ?_
    intro o ho hmem
    rcases mem_cons.mp hmem with heq | hmem
    · exact hnodup.1 (heq ▸ mem_map_of_mem ho)
    · exact hfresh o (mem_cons_of_mem _ ho) hmem

theorem tipCursor_of {P : InvestigationSyncCursorV1 → Prop} {source : JsString}
    {fromCursor : InvestigationSyncCursorV1} {operations : List InvestigationSyncOperationV1}
    (hfrom : P fromCursor)
    (hbehind : ∀ o ∈ operations, P ⟨source, o.sourceSequence, some o.operationId,
      some o.operationFingerprint⟩) : P (tipCursor source fromCursor operations) := by
  unfold tipCursor
  split
  · rename_i last hlast
    exact hbehind last (mem_of_getLast? hlast)
  · exact hfrom

theorem Chained.previous_of {b : InvestigationSyncBatchV1} {P : Option JsString → Prop}
    {expected : Nat} {previous : Option JsString} {ids : List JsString}
    {operations : List InvestigationSyncOperationV1}
    (h : Chained rt b expected previous ids operations) (hprevious : P previous)
    (hoperations : ∀ o ∈ operations, P (some o.operationFingerprint)) :
    ∀ o ∈ operations, P o.previousOperationFingerprint := by
  induction operations generalizing expected previous ids with
  | nil => exact fun _ ho => absurd ho not_mem_nil
  | cons o operations ih =>
    obtain ⟨-, -, -, -, heq, -, hrest⟩ := h
    obtain ⟨ho, htail⟩ := forall_mem_cons.mp hoperations
    exact forall_mem_cons.mpr ⟨heq ▸ hprevious, ih hrest ho htail⟩

theorem length_pos_of_isInstallationId {s : JsString} (h : isInstallationId s = true) :
    1 ≤ s.length := by
  cases s with
  | nil => exact absurd h (by decide)
  | cons u s => exact Nat.succ_pos _

theorem length_pos_of_isOpaqueId {s : JsString} (h : isOpaqueId s = true) : 1 ≤ s.length := by
  cases s with
  | nil => exact absurd h (by decide)
  | cons u s => exact Nat.succ_pos _

theorem attach_accepted (hvalid : FieldsValid rt u) (hbelongs : Belongs u) (hfree : TextsFree u)
    (hcontiguous : Contiguous u) : BatchAccepted rt (attachInvestigationSyncIntegrity rt u) := by
  have hsorted : ∀ {o}, o ∈ u.operations.insertionSort sequenceLe → o ∈ u.operations :=
    fun ho => (mem_insertionSort sequenceLe).mp ho
  have hchain : Chained rt (attachInvestigationSyncIntegrity rt u)
      (u.fromCursor.throughSequence + 1) u.fromCursor.lastOperationFingerprint []
      (attachInvestigationSyncIntegrity rt u).operations := by
    refine chained_chainOperations (fun o ho => ?_) ?_ hcontiguous.1 (fun _ _ => not_mem_nil)
    · exact ⟨(hvalid.rows o (hsorted ho)).1, hbelongs.rows o (hsorted ho)⟩
    · rw [hcontiguous.2, length_insertionSort]
  have hrow : ∀ o ∈ (attachInvestigationSyncIntegrity rt u).operations,
      o.unsigned ∈ u.operations := by
    intro o ho
    refine hsorted ?_
    have hmem := mem_map_of_mem (f := (·.unsigned)) ho
    rwa [show (attachInvestigationSyncIntegrity rt u).operations.map (·.unsigned) = _ from
      map_unsigned_chainOperations _ _] at hmem
  have hoperation : ∀ o ∈ (attachInvestigationSyncIntegrity rt u).operations,
      OperationFree o := by
    have hprevious := hchain.previous_of (P := fun fingerprint => ∀ text ∈ fingerprint,
      FORBIDDEN_VALUE_RE.test text = false) (cursor_free.mp hfree.fromCursor).2.2
      fun o ho text htext => Option.mem_some.mp htext ▸ forbidden_of_hex (hchain.fingerprint ho)
    exact fun o ho => ⟨hfree.rows _ (hrow o ho), hprevious o ho,
      forbidden_of_hex (hchain.fingerprint ho)⟩
  have hto : CursorShape (attachInvestigationSyncIntegrity rt u).toCursor ∧
      ValidCursor (attachInvestigationSyncIntegrity rt u).toCursor ∧
      CredentialFree (attachInvestigationSyncIntegrity rt u).toCursor.toJson ∧
      (attachInvestigationSyncIntegrity rt u).toCursor.sourceInstallationId =
        u.sourceInstallationId := by
    refine tipCursor_of (P := fun c => CursorShape c ∧ ValidCursor c ∧ CredentialFree c.toJson ∧
      c.sourceInstallationId = u.sourceInstallationId)
      ⟨hvalid.through, hvalid.fromCursor, hfree.fromCursor, hbelongs.cursor⟩ fun o ho => ?_
    obtain ⟨hvalidRow, hshape⟩ := hvalid.rows _ (hrow o ho)
    refine ⟨⟨length_pos_of_isInstallationId hvalid.source, hshape.sequence⟩,
      ⟨hvalid.source, fun hzero => ?_, fun _ => ?_⟩, cursor_free.mpr ⟨hfree.source, ?_, ?_⟩, rfl⟩
    · exact absurd hzero (Nat.one_le_iff_ne_zero.mp hvalidRow.sequence)
    · exact ⟨_, _, rfl, rfl, hvalidRow.operationId, hchain.fingerprint ho⟩
    · exact fun id hid => Option.mem_some.mp hid ▸ (hoperation o ho).row.operationId
    · exact fun text htext => Option.mem_some.mp htext ▸ (hoperation o ho).fingerprint
  obtain ⟨hshape, htip, hfreeTip, hsource⟩ := hto
  exact ⟨⟨length_pos_of_isInstallationId hvalid.source,
      length_pos_of_isOpaqueId hvalid.investigation, hvalid.through, hshape,
      fun o ho => (hvalid.rows _ (hrow o ho)).2⟩,
    batch_free.mpr ⟨hfree.source, hfree.investigation, hfree.fromCursor, hfreeTip, hoperation,
      forbidden_of_hex (rt.sha256_hex _)⟩,
    hvalid.source, hvalid.fromCursor, htip, ⟨hbelongs.cursor, hsource⟩, hvalid.investigation, rfl,
    ⟨rfl, rfl⟩, hchain, rfl, rfl⟩

theorem attach_perm {operations : List InvestigationSyncOperationUnsignedV1}
    (hcontiguous : Contiguous u) (hperm : operations.Perm u.operations) :
    attachInvestigationSyncIntegrity rt { u with operations } =
      attachInvestigationSyncIntegrity rt u := by
  have hsort : operations.insertionSort sequenceLe = u.operations.insertionSort sequenceLe := by
    have hsorted : ∀ l : List InvestigationSyncOperationUnsignedV1,
        (l.insertionSort sequenceLe).Pairwise sequenceLe := fun l =>
      haveI : Std.Total sequenceLe := ⟨fun a b => Nat.le_total _ _⟩
      haveI : IsTrans _ sequenceLe := ⟨fun a b c => Nat.le_trans⟩
      pairwise_insertionSort sequenceLe l
    have hnodup : ((u.operations.insertionSort sequenceLe).map (·.sourceSequence)).Nodup := by
      rw [hcontiguous.2]
      exact nodup_range'
    have hperm' : (operations.insertionSort sequenceLe).Perm (u.operations.insertionSort sequenceLe) :=
      (perm_insertionSort _ _).trans (hperm.trans (perm_insertionSort _ _).symm)
    refine hperm'.eq_of_pairwise (fun a b ha hb hab hba => ?_) (hsorted _) (hsorted _)
    exact inj_on_of_nodup_map hnodup (hperm'.mem_iff.mp ha) hb (Nat.le_antisymm hab hba)
  unfold attachInvestigationSyncIntegrity
  simp only [hsort]

end

/-! ## The tip stands for the operations -/

theorem privacyText_inj {c c' : PrivacyClass} (h : JsString.ofString c.text = JsString.ofString c'.text) :
    c = c' := by
  revert h
  cases c <;> cases c' <;> decide

theorem goodKeys_records : GoodKeys ["sourceActorId", "displayName", "kind"] ∧
    GoodKeys ["kind", "objectId", "baseRevision", "resultRevision", "baseHash", "resultHash",
      "privacyClass"] ∧
    GoodKeys ["operationId", "sourceInstallationId", "sourceSequence",
      "previousOperationFingerprint", "emittedAt", "investigationId", "actor", "mutation", "object",
      "payloadJson", "tombstoneReason"] := by
  decide +kernel

theorem actor_inj {a a' : SyncActorAttributionV1}
    (h : canonicalValue a.toJson = canonicalValue a'.toJson) : a = a' := by
  have hvalues := canonicalValue_jsonObject_inj ["sourceActorId", "displayName", "kind"] rfl rfl
    goodKeys_records.1 h
  simp only [map_cons, map_nil, jsonText, canonicalValue, cons.injEq,
    JsonValue.string.injEq, and_true] at hvalues
  obtain ⟨hid, hname, hkind⟩ := hvalues
  have hkind' : a.kind = a'.kind := by
    revert hkind
    cases a.kind <;> cases a'.kind <;> decide
  cases a
  cases a'
  rw [SyncActorAttributionV1.mk.injEq]
  exact ⟨hid, hname, hkind'⟩

theorem mutationObject_inj {o o' : SyncObjectMutationV1}
    (h : canonicalValue o.toJson = canonicalValue o'.toJson) : o = o' := by
  have hvalues := canonicalValue_jsonObject_inj ["kind", "objectId", "baseRevision",
    "resultRevision", "baseHash", "resultHash", "privacyClass"] rfl rfl goodKeys_records.2.1 h
  simp only [map_cons, map_nil, jsonText, canonicalValue_jsonNullable, canonicalValue,
    jsonNat, cons.injEq, JsonValue.string.injEq, and_true] at hvalues
  obtain ⟨hkind, hid, hbase, hresult, hbaseHash, hresultHash, hprivacy⟩ := hvalues
  cases o
  cases o'
  rw [SyncObjectMutationV1.mk.injEq]
  exact ⟨kindText_inj hkind, hid, jsonNat_inj hbase, jsonNat_inj hresult,
    jsonNullable_inj hbaseHash, jsonNullable_inj hresultHash, privacyText_inj hprivacy⟩

theorem operationUnsigned_inj {o o' : InvestigationSyncOperationV1}
    (h : canonicalJson (operationUnsigned o) = canonicalJson (operationUnsigned o')) :
    o.unsigned = o'.unsigned ∧
      o.previousOperationFingerprint = o'.previousOperationFingerprint := by
  have hvalues := canonicalValue_jsonObject_inj ["operationId", "sourceInstallationId",
    "sourceSequence", "previousOperationFingerprint", "emittedAt", "investigationId", "actor",
    "mutation", "object", "payloadJson", "tombstoneReason"] rfl rfl goodKeys_records.2.2
    (canonicalJson_inj h)
  simp only [InvestigationSyncOperationV1.unsignedMembers, map_cons, map_nil, jsonText,
    canonicalValue_jsonNullable, canonicalValue, jsonNat, cons.injEq, JsonValue.string.injEq,
    and_true] at hvalues
  obtain ⟨hid, hsource, hsequence, hprevious, hemitted, hinvestigation, hactor, hmutation, hobject,
    hpayload, hreason⟩ := hvalues
  have hmutation' : o.mutation = o'.mutation := by
    revert hmutation
    cases o.mutation <;> cases o'.mutation <;> decide
  refine ⟨?_, jsonNullable_inj hprevious⟩
  obtain ⟨⟨⟩, _, _⟩ := o
  obtain ⟨⟨⟩, _, _⟩ := o'
  rw [InvestigationSyncOperationUnsignedV1.mk.injEq]
  exact ⟨hid, hsource, jsonNat_inj hsequence, hemitted, hinvestigation, actor_inj hactor,
    hmutation', mutationObject_inj hobject, jsonNullable_inj hpayload, jsonNullable_inj hreason⟩

/-- Different operations of the list have different digests. -/
def NoCollision (rt : SyncRuntime) (operations : List InvestigationSyncOperationV1) : Prop :=
  ∀ o ∈ operations, ∀ o' ∈ operations,
    rt.sha256 (canonicalJson (operationUnsigned o)) =
      rt.sha256 (canonicalJson (operationUnsigned o')) →
    canonicalJson (operationUnsigned o) = canonicalJson (operationUnsigned o')

/-- No operation of the batch leads back to the fingerprint it starts from. -/
def NoCycle (b : InvestigationSyncBatchV1) : Prop :=
  ∀ o ∈ b.operations, some o.operationFingerprint ≠ b.fromCursor.lastOperationFingerprint

def tipFingerprint (previous : Option JsString) (operations : List InvestigationSyncOperationV1) :
    Option JsString :=
  operations.foldl (fun _ o => some o.operationFingerprint) previous

theorem tipFingerprint_append (previous : Option JsString)
    (operations : List InvestigationSyncOperationV1) (o : InvestigationSyncOperationV1) :
    tipFingerprint previous (operations ++ [o]) = some o.operationFingerprint := by
  rw [tipFingerprint, foldl_append]
  rfl

/-- Every operation carries the fingerprint before it. -/
def Linked (previous : Option JsString) : List InvestigationSyncOperationV1 → Prop
  | [] => True
  | o :: operations =>
    o.previousOperationFingerprint = previous ∧ Linked (some o.operationFingerprint) operations

theorem linked_append {previous : Option JsString} {operations : List InvestigationSyncOperationV1}
    {o : InvestigationSyncOperationV1} : Linked previous (operations ++ [o]) ↔
      Linked previous operations ∧
        o.previousOperationFingerprint = tipFingerprint previous operations := by
  induction operations generalizing previous with
  | nil => simp [Linked, tipFingerprint]
  | cons first operations ih =>
    rw [cons_append, Linked, Linked, ih, and_assoc]
    rfl

/-- Two chains from one fingerprint to one fingerprint are the same, when a fingerprint determines
its operation and none leads back to the start. -/
theorem Linked.unique {previous : Option JsString} {operations : List InvestigationSyncOperationV1} :
    ∀ {operations' : List InvestigationSyncOperationV1}, Linked previous operations →
      Linked previous operations' →
      tipFingerprint previous operations = tipFingerprint previous operations' →
      (∀ o ∈ operations, ∀ o' ∈ operations', o.operationFingerprint = o'.operationFingerprint →
        o = o') →
      (∀ o ∈ operations, some o.operationFingerprint ≠ previous) →
      (∀ o ∈ operations', some o.operationFingerprint ≠ previous) → operations = operations' := by
  -- from the back: the last operations are equal, so the fingerprints in front of them are
  induction operations using List.reverseRecOn with
  | nil =>
    intro operations' _ _ htip _ _ hcycle'
    rcases eq_nil_or_concat operations' with rfl | ⟨operations', o', rfl⟩
    · rfl
    · rw [concat_eq_append, tipFingerprint_append] at htip
      exact absurd htip.symm (hcycle' o' (by simp))
  | append_singleton operations o ih =>
    intro operations' h h' htip hinj hcycle hcycle'
    rcases eq_nil_or_concat operations' with rfl | ⟨operations', o', rfl⟩
    · rw [tipFingerprint_append] at htip
      exact absurd htip (hcycle o (by simp))
    · rw [concat_eq_append] at h' htip hinj hcycle' ⊢
      rw [tipFingerprint_append, tipFingerprint_append, Option.some.injEq] at htip
      have heq : o = o' := hinj o (by simp) o' (by simp) htip
      obtain ⟨hlinked, hprevious⟩ := linked_append.mp h
      obtain ⟨hlinked', hprevious'⟩ := linked_append.mp h'
      rw [ih hlinked hlinked' (by rw [← hprevious, ← hprevious', heq])
        (fun o ho o' ho' => hinj o (mem_append_left _ ho) o' (mem_append_left _ ho'))
        (fun o ho => hcycle o (mem_append_left _ ho))
        (fun o ho => hcycle' o (mem_append_left _ ho)), heq]

section

variable {rt : SyncRuntime} {b b' : InvestigationSyncBatchV1}

theorem Chained.linked {expected : Nat} {previous : Option JsString} {ids : List JsString}
    {operations : List InvestigationSyncOperationV1}
    (h : Chained rt b expected previous ids operations) : Linked previous operations ∧
      ∀ o ∈ operations, investigationSyncOperationFingerprint rt o = o.operationFingerprint := by
  induction operations generalizing expected previous ids with
  | nil => exact ⟨trivial, fun _ ho => absurd ho not_mem_nil⟩
  | cons o operations ih =>
    obtain ⟨⟨-, hfingerprint⟩, -, -, -, hprevious, -, hrest⟩ := h
    obtain ⟨hlinked, hall⟩ := ih hrest
    exact ⟨⟨hprevious, hlinked⟩, forall_mem_cons.mpr ⟨hfingerprint, hall⟩⟩

theorem BatchAccepted.toFingerprint (h : BatchAccepted rt b) :
    b.toCursor.lastOperationFingerprint =
      tipFingerprint b.fromCursor.lastOperationFingerprint b.operations := by
  rw [h.tip, tipCursor]
  rcases eq_nil_or_concat b.operations with hnil | ⟨operations, o, hconcat⟩
  · rw [hnil]
    rfl
  · rw [hconcat, concat_eq_append, tipFingerprint_append, getLast?_concat]

theorem operations_eq_of_cursors (h : BatchAccepted rt b) (h' : BatchAccepted rt b')
    (hfrom : b.fromCursor.lastOperationFingerprint = b'.fromCursor.lastOperationFingerprint)
    (hto : b.toCursor.lastOperationFingerprint = b'.toCursor.lastOperationFingerprint)
    (hcollision : NoCollision rt (b.operations ++ b'.operations)) (hcycle : NoCycle b)
    (hcycle' : NoCycle b') : b.operations = b'.operations := by
  obtain ⟨hlinked, hfingerprint⟩ := h.chain.linked
  obtain ⟨hlinked', hfingerprint'⟩ := h'.chain.linked
  rw [h.toFingerprint, h'.toFingerprint, ← hfrom] at hto
  rw [← hfrom] at hlinked'
  refine hlinked.unique hlinked' hto (fun o ho o' ho' heq => ?_) hcycle
    (fun o ho => hfrom ▸ hcycle' o ho)
  have htext := hcollision o (mem_append_left _ ho) o' (mem_append_right _ ho')
    (by
      have := heq
      rwa [← hfingerprint o ho, ← hfingerprint' o' ho'] at this)
  obtain ⟨hunsigned, hprevious⟩ := operationUnsigned_inj htext
  cases o
  cases o'
  rw [InvestigationSyncOperationV1.mk.injEq]
  exact ⟨hunsigned, hprevious, heq⟩

end

/-! ## Batches with one operation -/

section

variable {rt : SyncRuntime}

/-- The row of the sample at a sequence, with the hash of its object. -/
def hashedRow (rt : SyncRuntime) (sequence : Nat) : InvestigationSyncOperationUnsignedV1 :=
  { sampleRow with
    sourceSequence := sequence
    object := { sampleRow.object with
      resultHash := some (expectedResultHash rt sampleRow false sampleRow.payloadJson none) } }

theorem hashedRow_accepted (hdate : rt.date = plainDate)
    (hparse : rt.jsonParse (JsString.ofString "{}") = some (.object [])) {n : Nat} (hn : 1 ≤ n)
    (hsafe : Safe n) : ValidRow rt (hashedRow rt n) ∧ OperationShape (hashedRow rt n) ∧
      RowFree (hashedRow rt n) := by
  refine ⟨?_, ?_, ?_⟩
  · exact
    { operationId := (by decide +kernel : isOperationId sampleRow.operationId = true)
      source := (by decide +kernel : isInstallationId sampleRow.sourceInstallationId = true)
      sequence := hn
      emittedAt := by
        rw [hdate]
        exact (by decide +kernel : isUtcTimestamp sampleRow.emittedAt = true ∧
          (plainDate.parse sampleRow.emittedAt).isSome = true)
      investigation := (by decide +kernel : isOpaqueId sampleRow.investigationId = true)
      actor := (by decide +kernel : isOpaqueId sampleRow.actor.sourceActorId = true)
      displayName := (by decide +kernel : JsString.trim sampleRow.actor.displayName ≠ [] ∧
        hasDisallowedText sampleRow.actor.displayName = false)
      objectId := (by decide +kernel : isOpaqueId sampleRow.object.objectId = true)
      base := ⟨rfl, fun _ => rfl, fun h => absurd rfl h, fun _ h => nomatch h⟩
      mutation := by
        refine ⟨rfl, _, rfl, ⟨[], hparse, trivial, trivial, ?_⟩, rfl⟩
        decide +kernel }
  · exact
    { operationId := (by decide +kernel : 1 ≤ sampleRow.operationId.length)
      source := (by decide +kernel : 1 ≤ sampleRow.sourceInstallationId.length)
      sequence := hsafe
      emittedAt := (by decide +kernel : 1 ≤ sampleRow.emittedAt.length)
      investigation := (by decide +kernel : 1 ≤ sampleRow.investigationId.length)
      actor := (by decide +kernel : 1 ≤ sampleRow.actor.sourceActorId.length)
      displayName := (by decide +kernel : 1 ≤ sampleRow.actor.displayName.length)
      objectId := (by decide +kernel : 1 ≤ sampleRow.object.objectId.length)
      base := (by decide +kernel : Safe sampleRow.object.baseRevision)
      result := (by decide +kernel : Safe sampleRow.object.resultRevision) }
  · exact
    { operationId := (by decide +kernel : FORBIDDEN_VALUE_RE.test sampleRow.operationId = false)
      source := (by decide +kernel : FORBIDDEN_VALUE_RE.test sampleRow.sourceInstallationId = false)
      emittedAt := (by decide +kernel : FORBIDDEN_VALUE_RE.test sampleRow.emittedAt = false)
      investigation := (by decide +kernel : FORBIDDEN_VALUE_RE.test sampleRow.investigationId = false)
      actor := (by decide +kernel : FORBIDDEN_VALUE_RE.test sampleRow.actor.sourceActorId = false)
      displayName := (by decide +kernel : FORBIDDEN_VALUE_RE.test sampleRow.actor.displayName = false)
      objectId := (by decide +kernel : FORBIDDEN_VALUE_RE.test sampleRow.object.objectId = false)
      baseHash := fun _ h => nomatch h
      resultHash := fun hash h => Option.mem_some.mp h ▸ forbidden_of_hex (rt.sha256_hex _)
      payload := fun payload h => Option.mem_some.mp h ▸ by decide +kernel
      reason := fun _ h => nomatch h }

end

theorem sampleRuntime_jsonParse :
    sampleRuntime.jsonParse (JsString.ofString "{}") = some (.object []) := by
  show (if JsString.ofString "{}" = JsString.ofString "{}" then some (JsonValue.object [])
    else none) = _
  exact if_pos rfl

theorem sampleUnsigned_accepted : FieldsValid sampleRuntime sampleUnsigned ∧
    Belongs sampleUnsigned ∧ TextsFree sampleUnsigned := by
  obtain ⟨hvalid, hshape, hfree⟩ :=
    @hashedRow_accepted sampleRuntime rfl sampleRuntime_jsonParse 1 (Nat.le_refl 1) (by decide)
  refine ⟨?_, ⟨rfl, forall_mem_singleton.mpr ⟨rfl, rfl⟩⟩, ?_⟩
  · exact
    { source := by decide +kernel
      investigation := by decide +kernel
      fromCursor := ⟨by decide +kernel, fun _ => ⟨rfl, rfl⟩, fun h => absurd rfl h⟩
      through := by decide +kernel
      rows := forall_mem_singleton.mpr ⟨hvalid, hshape⟩ }
  · exact
    { source := by decide +kernel
      investigation := by decide +kernel
      fromCursor := cursor_free.mpr ⟨by decide +kernel, nofun, nofun⟩
      rows := forall_mem_singleton.mpr hfree }

theorem sampleBatch_accepted : BatchAccepted sampleRuntime sampleBatch :=
  attach_accepted sampleUnsigned_accepted.1 sampleUnsigned_accepted.2.1
    sampleUnsigned_accepted.2.2 (by decide +kernel)

/-- Integrity and chain of a batch. -/
theorem sync_batch_chain (rt : SyncRuntime) :
    (∀ u : InvestigationSyncBatchUnsignedV1, FieldsValid rt u → Belongs u → TextsFree u →
      Contiguous u → ∀ operations : List InvestigationSyncOperationUnsignedV1,
      operations.Perm u.operations →
      parseInvestigationSyncBatch rt (attachInvestigationSyncIntegrity rt { u with operations }) =
        .ok (attachInvestigationSyncIntegrity rt u)) ∧
    ∀ raw raw' b b' : InvestigationSyncBatchV1, parseInvestigationSyncBatch rt raw = .ok b →
      parseInvestigationSyncBatch rt raw' = .ok b' →
      b.fromCursor.lastOperationFingerprint = b'.fromCursor.lastOperationFingerprint →
      b.toCursor.lastOperationFingerprint = b'.toCursor.lastOperationFingerprint →
      NoCollision rt (b.operations ++ b'.operations) → NoCycle b → NoCycle b' →
      b.operations = b'.operations := by
  refine ⟨fun u hvalid hbelongs hfree hcontiguous operations hperm => ?_,
    fun raw raw' b b' hb hb' hfrom hto hcollision hcycle hcycle' => ?_⟩
  · rw [attach_perm hcontiguous hperm]
    exact parseInvestigationSyncBatch_ok.mpr
      ⟨attach_accepted hvalid hbelongs hfree hcontiguous, rfl⟩
  · obtain ⟨haccepted, rfl⟩ := parseInvestigationSyncBatch_ok.mp hb
    obtain ⟨haccepted', rfl⟩ := parseInvestigationSyncBatch_ok.mp hb'
    exact operations_eq_of_cursors haccepted haccepted' hfrom hto hcollision hcycle hcycle'

theorem sync_batch_chain_sample :
    parseInvestigationSyncBatch sampleRuntime sampleBatch = .ok sampleBatch ∧
    ∀ raw b, parseInvestigationSyncBatch sampleRuntime raw = .ok b →
      b.fromCursor.lastOperationFingerprint = none →
      b.toCursor.lastOperationFingerprint = sampleBatch.toCursor.lastOperationFingerprint →
      NoCollision sampleRuntime (b.operations ++ sampleBatch.operations) →
      b.operations = sampleBatch.operations := by
  have hsample : parseInvestigationSyncBatch sampleRuntime sampleBatch = .ok sampleBatch :=
    (sync_batch_chain sampleRuntime).1 sampleUnsigned sampleUnsigned_accepted.1
      sampleUnsigned_accepted.2.1 sampleUnsigned_accepted.2.2 (by decide +kernel) _
      (List.Perm.refl _)
  refine ⟨hsample, fun raw b hb hfrom hto hcollision => ?_⟩
  exact (sync_batch_chain sampleRuntime).2 raw sampleBatch b sampleBatch hb hsample hfrom hto
    hcollision (fun o _ => by rw [hfrom]; exact nofun) (fun o _ => nofun)

def constantRuntime : SyncRuntime :=
  { sampleRuntime with
    sha256 := fun _ => hexText 0 64
    sha256_hex := fun _ => isSha256Hex_hexText 0 }

/-- From an operation with the fingerprint of zeros to the next one. -/
def cycleUnsigned : InvestigationSyncBatchUnsignedV1 :=
  { sampleUnsigned with
    fromCursor := ⟨JsString.ofString "inst-aaaaaaaa", 1, some (JsString.ofString "syncop-bbbbbbbbbbbb"),
      some (hexText 0 64)⟩
    operations := [hashedRow constantRuntime 2] }

/-- The sample under the name of another installation. -/
def foreignUnsigned : InvestigationSyncBatchUnsignedV1 :=
  { sampleUnsigned with
    sourceInstallationId := JsString.ofString "inst-bbbbbbbb"
    fromCursor := ⟨JsString.ofString "inst-bbbbbbbb", 0, none, none⟩ }

/-- An operation of another installation is valid for itself and refused in the batch, and a
fingerprint that leads back to itself hides an operation. -/
theorem foreign_source_refused :
    (FieldsValid sampleRuntime foreignUnsigned ∧ Contiguous foreignUnsigned ∧
      ¬ ∃ b, parseInvestigationSyncBatch sampleRuntime
        (attachInvestigationSyncIntegrity sampleRuntime foreignUnsigned) = .ok b) ∧
    ∃ b b', parseInvestigationSyncBatch constantRuntime b = .ok b ∧
      parseInvestigationSyncBatch constantRuntime b' = .ok b' ∧
      b.fromCursor = b'.fromCursor ∧
      b.toCursor.lastOperationFingerprint = b'.toCursor.lastOperationFingerprint ∧
      NoCollision constantRuntime (b.operations ++ b'.operations) ∧
      b.operations ≠ b'.operations := by
  refine ⟨⟨⟨by decide +kernel, by decide +kernel,
    ⟨by decide +kernel, fun _ => ⟨rfl, rfl⟩, fun h => absurd rfl h⟩, by decide +kernel,
    sampleUnsigned_accepted.1.rows⟩, by decide +kernel, ?_⟩, ?_⟩
  · rintro ⟨b, hb⟩
    have haccepted := (parseInvestigationSyncBatch_ok.mp hb).1
    have hsource := (haccepted.chain.valid mem_cons_self).2.1
    exact absurd hsource (by decide +kernel)
  · have hcursor : ValidCursor cycleUnsigned.fromCursor :=
      ⟨by decide +kernel, fun h => absurd h (by decide), fun _ => ⟨_, _, rfl, rfl, by decide +kernel,
        isSha256Hex_hexText 0⟩⟩
    have hfree : CredentialFree cycleUnsigned.fromCursor.toJson :=
      cursor_free.mpr ⟨by decide +kernel, fun id h => Option.mem_some.mp h ▸ by decide +kernel,
        fun text h => Option.mem_some.mp h ▸ forbidden_of_hex (isSha256Hex_hexText 0)⟩
    have hparse : constantRuntime.jsonParse (JsString.ofString "{}") = some (.object []) :=
      sampleRuntime_jsonParse
    obtain ⟨hrow, hshape, hrowFree⟩ :=
      @hashedRow_accepted constantRuntime rfl hparse 2 (by decide) (by decide)
    have hone : BatchAccepted constantRuntime
        (attachInvestigationSyncIntegrity constantRuntime cycleUnsigned) :=
      attach_accepted
        ⟨by decide +kernel, by decide +kernel, hcursor, by decide +kernel,
          forall_mem_singleton.mpr ⟨hrow, hshape⟩⟩
        ⟨rfl, forall_mem_singleton.mpr ⟨rfl, rfl⟩⟩
        ⟨by decide +kernel, by decide +kernel, hfree, forall_mem_singleton.mpr hrowFree⟩
        (by decide +kernel)
    have hnone : BatchAccepted constantRuntime (attachInvestigationSyncIntegrity constantRuntime
        { cycleUnsigned with operations := [] }) :=
      attach_accepted
        ⟨by decide +kernel, by decide +kernel, hcursor, by decide +kernel,
          fun _ h => absurd h not_mem_nil⟩
        ⟨rfl, fun _ h => absurd h not_mem_nil⟩
        ⟨by decide +kernel, by decide +kernel, hfree, fun _ h => absurd h not_mem_nil⟩
        (by decide +kernel)
    refine ⟨_, _, parseInvestigationSyncBatch_ok.mpr ⟨hone, rfl⟩,
      parseInvestigationSyncBatch_ok.mpr ⟨hnone, rfl⟩, rfl, rfl, ?_, cons_ne_nil _ _⟩
    intro o ho o' ho' _
    rw [show o = _ from mem_singleton.mp ho, show o' = _ from mem_singleton.mp ho']

end ContextDesk
