import ContextDesk.Sync.Plan

/-!
# What the sync parsers accept

One lemma a checker reads its success back as a condition on the value: `validateOperation_ok`,
`parseInvestigationSyncBatch_ok` and `parseInvestigationSyncDestinationState_ok`. An accepted batch
is returned as it is; an accepted state is returned with its lists sorted, and accepted again.
-/

namespace ContextDesk

open Lib List

theorem exists_unit {p : Unit → Prop} : (∃ u, p u) ↔ p () := ⟨fun ⟨_, h⟩ => h, fun h => ⟨(), h⟩⟩

/-! ## Canonical texts of records -/

variable {c : InvestigationSyncCursorV1}

theorem cursor_inj {c' : InvestigationSyncCursorV1}
    (h : canonicalJson c.toJson = canonicalJson c'.toJson) : c = c' := by
  have hvalues := canonicalValue_jsonObject_inj
    ["sourceInstallationId", "throughSequence", "lastOperationId", "lastOperationFingerprint"]
    rfl rfl (by decide) (canonicalJson_inj h)
  simp only [map_cons, map_nil, canonicalValue_jsonNullable, canonicalValue,
    cons.injEq, JsonValue.string.injEq, and_true, jsonNat] at hvalues
  obtain ⟨hsource, hthrough, hid, hfingerprint⟩ := hvalues
  cases c
  cases c'
  rw [InvestigationSyncCursorV1.mk.injEq]
  exact ⟨hsource, jsonNat_inj hthrough, jsonNullable_inj hid, jsonNullable_inj hfingerprint⟩

theorem exclusions_inj {l l' : List SyncExclusion}
    (h : canonicalJson (exclusionsJson l) = canonicalJson (exclusionsJson l')) : l = l' := by
  have hvalue := canonicalJson_inj h
  simp only [exclusionsJson, canonicalValue, canonicalItems_eq_map, map_map,
    JsonValue.array.injEq] at hvalue
  refine map_injective_iff.mpr ?_ hvalue
  intro e e' he
  have htext := jsonText_inj he
  revert htext
  cases e <;> cases e' <;> decide

/-! ## Cursors and operations -/

structure ValidCursor (c : InvestigationSyncCursorV1) : Prop where
  source : isInstallationId c.sourceInstallationId = true
  zero : c.throughSequence = 0 → c.lastOperationId = none ∧ c.lastOperationFingerprint = none
  tip : c.throughSequence ≠ 0 → ∃ id fingerprint, c.lastOperationId = some id ∧
    c.lastOperationFingerprint = some fingerprint ∧ isOperationId id = true ∧
    isSha256Hex fingerprint = true

variable {path : String}

theorem validateCursor_ok : validateCursor path c = .ok () ↔ ValidCursor c := by
  simp only [validateCursor, requireInstallationId, bind_ok, ensure_ok, exists_unit]
  constructor
  · rintro ⟨hsource, hrest⟩
    split at hrest
    · rename_i hzero
      rw [ensure_ok] at hrest
      exact ⟨hsource, fun _ => hrest, fun h => absurd hzero h⟩
    · rename_i hzero
      refine ⟨hsource, fun h => absurd h hzero, fun _ => ?_⟩
      split at hrest
      · rename_i id fingerprint hid hfingerprint
        simp only [requireOperationId, requireSha256, bind_ok, ensure_ok, exists_unit] at hrest
        exact ⟨id, fingerprint, hid, hfingerprint, hrest.1, hrest.2⟩
      · exact absurd hrest (by simp)
  · intro h
    refine ⟨h.source, ?_⟩
    split
    · rename_i hzero
      rw [ensure_ok]
      exact h.zero hzero
    · rename_i hzero
      obtain ⟨id, fingerprint, hid, hfingerprint, hidOk, hfingerprintOk⟩ := h.tip hzero
      rw [hid, hfingerprint]
      simp only [requireOperationId, requireSha256, bind_ok, ensure_ok, exists_unit]
      exact ⟨hidOk, hfingerprintOk⟩

structure ValidBase (o : SyncObjectMutationV1) : Prop where
  result : o.resultRevision = o.baseRevision + 1
  create : o.baseRevision = 0 → o.baseHash = none
  existing : o.baseRevision ≠ 0 → o.baseHash ≠ none
  hash : ∀ baseHash, o.baseHash = some baseHash → isSha256Hex baseHash = true

theorem requireHash_ok {hash : Option JsString} :
    requireHash path hash = .ok () ↔ ∀ h, hash = some h → isSha256Hex h = true := by
  cases hash <;> simp [requireHash, requireSha256]

theorem validateBase_ok {o : SyncObjectMutationV1} :
    validateBase path o = .ok () ↔ ValidBase o := by
  unfold validateBase
  by_cases hzero : o.baseRevision = 0
  · rw [if_pos hzero]
    simp only [bind_ok, ensure_ok, exists_unit, requireHash_ok]
    refine ⟨?_, fun h => ⟨h.result, h.create hzero, h.hash⟩⟩
    rintro ⟨hresult, hcreate, hbase⟩
    exact ⟨hresult, fun _ => hcreate, fun h => absurd hzero h, hbase⟩
  · rw [if_neg hzero]
    simp only [bind_ok, ensure_ok, exists_unit, requireHash_ok]
    refine ⟨?_, fun h => ⟨h.result, h.existing hzero, h.hash⟩⟩
    rintro ⟨hresult, hexisting, hbase⟩
    exact ⟨hresult, fun h => absurd h hzero, fun _ => hexisting, hbase⟩

/-- A payload that is canonical and holds nothing that is excluded. -/
def CanonicalPayload (rt : SyncRuntime) (raw : JsString) : Prop :=
  ∃ members, rt.jsonParse raw = some (.object members) ∧ CredentialFree (.object members) ∧
    AUTHORITY_RULES.Passes (.object members) ∧ canonicalJson (.object members) = raw

theorem parseCanonicalPayload_ok {rt : SyncRuntime} {raw payload : JsString} :
    parseCanonicalPayload rt path raw = .ok payload ↔ CanonicalPayload rt raw ∧ payload = raw := by
  simp only [parseCanonicalPayload, bind_ok, require_ok]
  constructor
  · rintro ⟨value, hvalue, hrest⟩
    cases value with
    | object members =>
      simp only [bind_ok, assertNoCredentialLeakage_ok, assertNoAuthorityPayload,
        TextRules.check_ok, ensure_ok, pure_ok, exists_unit] at hrest
      obtain ⟨hcredential, hauthority, hcanonical, rfl⟩ := hrest
      exact ⟨⟨members, hvalue, hcredential, hauthority, hcanonical⟩, hcanonical⟩
    | _ => exact absurd hrest (by simp)
  · rintro ⟨⟨members, hvalue, hcredential, hauthority, hcanonical⟩, rfl⟩
    refine ⟨.object members, hvalue, ?_⟩
    simp only [bind_ok, assertNoCredentialLeakage_ok, assertNoAuthorityPayload,
      TextRules.check_ok, ensure_ok, pure_ok, exists_unit]
    exact ⟨hcredential, hauthority, hcanonical, hcanonical⟩

def ValidMutation (rt : SyncRuntime) (o : InvestigationSyncOperationUnsignedV1) : Prop :=
  match o.mutation with
  | .upsert => o.tombstoneReason = none ∧ ∃ payload, o.payloadJson = some payload ∧
      CanonicalPayload rt payload ∧
      o.object.resultHash = some (expectedResultHash rt o false (some payload) none)
  | .tombstone => o.object.baseRevision ≠ 0 ∧ o.payloadJson = none ∧
      ∃ reason, o.tombstoneReason = some reason ∧ JsString.trim reason ≠ [] ∧
        CredentialFree (.string reason) ∧
        o.object.resultHash = some (expectedResultHash rt o true none (some reason))

theorem validateMutation_ok {rt : SyncRuntime} {o : InvestigationSyncOperationUnsignedV1} :
    validateMutation rt path o = .ok () ↔ ValidMutation rt o := by
  unfold validateMutation ValidMutation
  cases o.mutation with
  | upsert =>
    simp only [bind_ok, ensure_ok, require_ok, parseCanonicalPayload_ok, exists_unit]
    constructor
    · rintro ⟨hreason, raw, hraw, _, ⟨hpayload, rfl⟩, hhash⟩
      exact ⟨hreason, _, hraw, hpayload, hhash⟩
    · rintro ⟨hreason, payload, hraw, hpayload, hhash⟩
      exact ⟨hreason, payload, hraw, payload, ⟨hpayload, rfl⟩, hhash⟩
  | tombstone =>
    simp only [bind_ok, ensure_ok, require_ok, assertNoCredentialLeakage_ok, exists_unit]

theorem ValidMutation.resultHash {rt : SyncRuntime} {o : InvestigationSyncOperationUnsignedV1}
    (h : ValidMutation rt o) :
    ∃ hash, o.object.resultHash = some hash ∧ isSha256Hex hash = true := by
  unfold ValidMutation at h
  cases hmutation : o.mutation with
  | upsert =>
    rw [hmutation] at h
    obtain ⟨-, payload, -, -, hhash⟩ := h
    exact ⟨_, hhash, rt.sha256_hex _⟩
  | tombstone =>
    rw [hmutation] at h
    obtain ⟨-, -, reason, -, -, -, hhash⟩ := h
    exact ⟨_, hhash, rt.sha256_hex _⟩

structure ValidRow (rt : SyncRuntime) (o : InvestigationSyncOperationUnsignedV1) : Prop where
  operationId : isOperationId o.operationId = true
  source : isInstallationId o.sourceInstallationId = true
  sequence : 1 ≤ o.sourceSequence
  emittedAt : isUtcTimestamp o.emittedAt = true ∧ (rt.date.parse o.emittedAt).isSome = true
  investigation : isOpaqueId o.investigationId = true
  actor : isOpaqueId o.actor.sourceActorId = true
  displayName : JsString.trim o.actor.displayName ≠ [] ∧ hasDisallowedText o.actor.displayName = false
  objectId : isOpaqueId o.object.objectId = true
  base : ValidBase o.object
  mutation : ValidMutation rt o

variable {o : InvestigationSyncOperationV1}

theorem validateOperation_ok {rt : SyncRuntime} :
    validateOperation rt path o = .ok () ↔ ValidRow rt o.unsigned ∧
      investigationSyncOperationFingerprint rt o = o.operationFingerprint := by
  simp only [validateOperation, bind_ok, ensure_ok, require_ok, requireOperationId,
    requireInstallationId, assertShareSafeTimestamp, requireOpaqueId, requireSafeText,
    validateBase_ok, validateMutation_ok, requireSha256, exists_unit]
  constructor
  · rintro ⟨hid, hsource, hsequence, hemitted, hinvestigation, hactor, hname, hobject, hbase,
      hmutation, -, -, -, -, hfingerprint⟩
    exact ⟨⟨hid, hsource, hsequence, hemitted, hinvestigation, hactor, hname, hobject, hbase,
      hmutation⟩, hfingerprint⟩
  · rintro ⟨h, hfingerprint⟩
    obtain ⟨hash, hhash, hhex⟩ := h.mutation.resultHash
    refine ⟨h.operationId, h.source, h.sequence, h.emittedAt, h.investigation, h.actor,
      h.displayName, h.objectId, h.base, h.mutation, hash, hhash, hhex, ?_, hfingerprint⟩
    rw [← hfingerprint]
    exact rt.sha256_hex _

/-! ## Shapes -/

def Safe (n : Nat) : Prop := (n : Int) ≤ MAX_SAFE_INTEGER

instance (n : Nat) : Decidable (Safe n) := inferInstanceAs (Decidable (_ ≤ _))

def CursorShape (c : InvestigationSyncCursorV1) : Prop :=
  1 ≤ c.sourceInstallationId.length ∧ Safe c.throughSequence

instance (c : InvestigationSyncCursorV1) : Decidable (CursorShape c) :=
  inferInstanceAs (Decidable (_ ∧ _))

theorem cursor_checkShape_ok : c.checkShape path = .ok () ↔ CursorShape c := by
  simp only [InvestigationSyncCursorV1.checkShape, checkNstr, checkU64, bind_ok, ensure_ok,
    exists_unit, CursorShape, Safe]

structure OperationShape (o : InvestigationSyncOperationUnsignedV1) : Prop where
  operationId : 1 ≤ o.operationId.length
  source : 1 ≤ o.sourceInstallationId.length
  sequence : Safe o.sourceSequence
  emittedAt : 1 ≤ o.emittedAt.length
  investigation : 1 ≤ o.investigationId.length
  actor : 1 ≤ o.actor.sourceActorId.length
  displayName : 1 ≤ o.actor.displayName.length
  objectId : 1 ≤ o.object.objectId.length
  base : Safe o.object.baseRevision
  result : Safe o.object.resultRevision

theorem operation_checkShape_ok : o.checkShape path = .ok () ↔ OperationShape o.unsigned := by
  simp only [InvestigationSyncOperationV1.checkShape, checkNstr, checkU64, bind_ok, ensure_ok,
    exists_unit]
  constructor
  · rintro ⟨h1, h2, h3, h4, h5, h6, h7, h8, h9, h10⟩
    exact ⟨h1, h2, h3, h4, h5, h6, h7, h8, h9, h10⟩
  · intro h
    exact ⟨h.operationId, h.source, h.sequence, h.emittedAt, h.investigation, h.actor,
      h.displayName, h.objectId, h.base, h.result⟩

structure BatchShape (b : InvestigationSyncBatchV1) : Prop where
  source : 1 ≤ b.sourceInstallationId.length
  investigation : 1 ≤ b.investigationId.length
  fromCursor : CursorShape b.fromCursor
  toCursor : CursorShape b.toCursor
  operations : ∀ o ∈ b.operations, OperationShape o.unsigned

theorem batch_checkShape_ok {b : InvestigationSyncBatchV1} :
    b.checkShape = .ok () ↔ BatchShape b := by
  have hoperations : checkEach "$.operations" InvestigationSyncOperationV1.checkShape 0
      b.operations = .ok () ↔ ∀ o ∈ b.operations, OperationShape o.unsigned :=
    checkEach_ok (P := fun o => OperationShape o.unsigned) (fun _ _ => operation_checkShape_ok) 0
      b.operations
  simp only [InvestigationSyncBatchV1.checkShape, checkNstr, bind_ok, ensure_ok, exists_unit,
    cursor_checkShape_ok, hoperations]
  refine ⟨?_, fun h => ⟨h.source, h.investigation, h.fromCursor, h.toCursor, h.operations⟩⟩
  rintro ⟨h1, h2, h3, h4, h5⟩
  exact ⟨h1, h2, h3, h4, h5⟩

/-! ## Credentials -/

def FreeText (s : String) : Prop := FORBIDDEN_VALUE_RE.test (JsString.ofString s) = false

instance (s : String) : Decidable (FreeText s) := inferInstanceAs (Decidable (_ = _))

theorem texts_free : (∀ kind : PortableObjectKind, FreeText kind.text) ∧
    (∀ c : PrivacyClass, FreeText c.text) ∧ (∀ kind : SyncActorKind, FreeText kind.text) ∧
    (∀ m : SyncMutation, FreeText m.text) ∧ (∀ e : SyncExclusion, FreeText e.text) ∧
    FreeText INVESTIGATION_SYNC_SCHEMA_ID := by
  refine ⟨fun kind => ?_, fun c => ?_, fun kind => ?_, fun m => ?_, fun e => ?_, by decide +kernel⟩
  · cases kind <;> decide +kernel
  · cases c <;> decide +kernel
  · cases kind <;> decide +kernel
  · cases m <;> decide +kernel
  · cases e <;> decide +kernel

theorem free_kind (kind : SyncObjectKind) : FreeText (SyncObjectKind.text kind) :=
  texts_free.1 kind.1

theorem free_privacy (c : PrivacyClass) : FreeText c.text := texts_free.2.1 c

/-- The keys of the records of a batch and of a state. -/
def RECORD_KEYS : List String :=
  ["schemaId", "sourceInstallationId", "destinationInstallationId", "investigationId", "fromCursor",
    "toCursor", "checkpoint", "acceptedPrivacyClasses", "objects", "appliedOperations",
    "operations", "exclusions", "automaticSync", "networkingIncluded", "batchFingerprint",
    "throughSequence", "lastOperationId", "lastOperationFingerprint", "sourceActorId",
    "displayName", "kind", "objectId", "baseRevision", "resultRevision", "baseHash", "resultHash",
    "privacyClass", "operationId", "sourceSequence", "previousOperationFingerprint", "emittedAt",
    "actor", "mutation", "object", "payloadJson", "tombstoneReason", "operationFingerprint",
    "revision", "objectHash", "tombstoned"]

theorem recordKeys_free :
    ∀ key ∈ RECORD_KEYS, isForbiddenKey (JsString.ofString key) = false := by
  decide +kernel

theorem credentialFree_record (keys : List String) {members : List (String × JsonValue)}
    (hkeys : members.map Prod.fst = keys) (hrecord : keys ⊆ RECORD_KEYS) :
    CredentialFree (jsonObject members) ↔ ∀ value ∈ members.map Prod.snd, CredentialFree value := by
  rw [CredentialFree, TextRules.passes_jsonObject]
  constructor
  · intro h value hvalue
    obtain ⟨member, hmember, rfl⟩ := mem_map.mp hvalue
    exact (h member hmember).2
  · intro h member hmember
    exact ⟨recordKeys_free member.1 (hrecord (hkeys ▸ mem_map_of_mem hmember)),
      h _ (mem_map_of_mem hmember)⟩

structure RowFree (o : InvestigationSyncOperationUnsignedV1) : Prop where
  operationId : FORBIDDEN_VALUE_RE.test o.operationId = false
  source : FORBIDDEN_VALUE_RE.test o.sourceInstallationId = false
  emittedAt : FORBIDDEN_VALUE_RE.test o.emittedAt = false
  investigation : FORBIDDEN_VALUE_RE.test o.investigationId = false
  actor : FORBIDDEN_VALUE_RE.test o.actor.sourceActorId = false
  displayName : FORBIDDEN_VALUE_RE.test o.actor.displayName = false
  objectId : FORBIDDEN_VALUE_RE.test o.object.objectId = false
  baseHash : ∀ hash ∈ o.object.baseHash, FORBIDDEN_VALUE_RE.test hash = false
  resultHash : ∀ hash ∈ o.object.resultHash, FORBIDDEN_VALUE_RE.test hash = false
  payload : ∀ payload ∈ o.payloadJson, FORBIDDEN_VALUE_RE.test payload = false
  reason : ∀ reason ∈ o.tombstoneReason, FORBIDDEN_VALUE_RE.test reason = false

structure OperationFree (o : InvestigationSyncOperationV1) : Prop where
  row : RowFree o.unsigned
  previous : ∀ fingerprint ∈ o.previousOperationFingerprint,
    FORBIDDEN_VALUE_RE.test fingerprint = false
  fingerprint : FORBIDDEN_VALUE_RE.test o.operationFingerprint = false

theorem actor_free {a : SyncActorAttributionV1} : CredentialFree a.toJson ↔
    FORBIDDEN_VALUE_RE.test a.sourceActorId = false ∧
      FORBIDDEN_VALUE_RE.test a.displayName = false := by
  have hkind : CREDENTIAL_RULES.Passes (jsonText a.kind.text) := texts_free.2.2.1 a.kind
  rw [SyncActorAttributionV1.toJson, credentialFree_record ["sourceActorId", "displayName", "kind"]
    rfl (by simp [RECORD_KEYS])]
  simp only [map_cons, map_nil, forall_mem_cons, CredentialFree]
  exact ⟨fun h => ⟨h.1, h.2.1⟩, fun h => ⟨h.1, h.2, hkind, fun _ hmem => absurd hmem not_mem_nil⟩⟩

theorem mutationObject_free {o : SyncObjectMutationV1} : CredentialFree o.toJson ↔
    FORBIDDEN_VALUE_RE.test o.objectId = false ∧
      (∀ hash ∈ o.baseHash, FORBIDDEN_VALUE_RE.test hash = false) ∧
      ∀ hash ∈ o.resultHash, FORBIDDEN_VALUE_RE.test hash = false := by
  rw [SyncObjectMutationV1.toJson, credentialFree_record ["kind", "objectId", "baseRevision",
    "resultRevision", "baseHash", "resultHash", "privacyClass"] rfl (by simp [RECORD_KEYS])]
  simp only [map_cons, map_nil, forall_mem_cons, CredentialFree, jsonNat, jsonText,
    TextRules.passes_jsonNullable, TextRules.Passes]
  exact ⟨fun h => ⟨h.2.1, h.2.2.2.2.1, h.2.2.2.2.2.1⟩, fun h => ⟨free_kind o.kind, h.1, trivial,
    trivial, h.2.1, h.2.2, free_privacy o.privacyClass, fun _ hmem => absurd hmem not_mem_nil⟩⟩

theorem operation_free : CredentialFree o.toJson ↔ OperationFree o := by
  have hmutation : CREDENTIAL_RULES.Passes (jsonText o.mutation.text) :=
    texts_free.2.2.2.1 o.mutation
  rw [InvestigationSyncOperationV1.toJson, credentialFree_record ["operationId",
    "sourceInstallationId", "sourceSequence", "previousOperationFingerprint", "emittedAt",
    "investigationId", "actor", "mutation", "object", "payloadJson", "tombstoneReason",
    "operationFingerprint"] rfl (by simp [RECORD_KEYS])]
  simp only [InvestigationSyncOperationV1.unsignedMembers, cons_append, nil_append,
    map_cons, map_nil, forall_mem_cons, actor_free, mutationObject_free]
  simp only [CredentialFree, jsonNat, TextRules.passes_jsonNullable]
  constructor
  · rintro ⟨hid, hsource, -, hprevious, hemitted, hinvestigation, ⟨hactor, hname⟩, -,
      ⟨hobject, hbase, hresult⟩, hpayload, hreason, hfingerprint, -⟩
    exact ⟨⟨hid, hsource, hemitted, hinvestigation, hactor, hname, hobject, hbase, hresult, hpayload,
      hreason⟩, hprevious, hfingerprint⟩
  · rintro ⟨h, hprevious, hfingerprint⟩
    exact ⟨h.operationId, h.source, trivial, hprevious, h.emittedAt, h.investigation,
      ⟨h.actor, h.displayName⟩, hmutation, ⟨h.objectId, h.baseHash, h.resultHash⟩, h.payload,
      h.reason, hfingerprint, fun _ hmem => absurd hmem not_mem_nil⟩

structure BatchFree (b : InvestigationSyncBatchV1) : Prop where
  source : FORBIDDEN_VALUE_RE.test b.sourceInstallationId = false
  investigation : FORBIDDEN_VALUE_RE.test b.investigationId = false
  fromCursor : CredentialFree b.fromCursor.toJson
  toCursor : CredentialFree b.toCursor.toJson
  operations : ∀ o ∈ b.operations, OperationFree o
  fingerprint : FORBIDDEN_VALUE_RE.test b.batchFingerprint = false

theorem batch_free {b : InvestigationSyncBatchV1} : CredentialFree b.toJson ↔ BatchFree b := by
  have hschema : CREDENTIAL_RULES.Passes (jsonText INVESTIGATION_SYNC_SCHEMA_ID) :=
    texts_free.2.2.2.2.2
  have hoperations : CREDENTIAL_RULES.Passes (.array (b.operations.map (·.toJson))) ↔
      ∀ o ∈ b.operations, OperationFree o := by
    rw [TextRules.Passes, TextRules.passesItems_map]
    exact forall₂_congr fun _ _ => operation_free
  have hexclusions : CREDENTIAL_RULES.Passes (exclusionsJson b.exclusions) := by
    rw [exclusionsJson, TextRules.Passes, TextRules.passesItems_map]
    exact fun e _ => texts_free.2.2.2.2.1 e
  rw [InvestigationSyncBatchV1.toJson, credentialFree_record ["schemaId", "sourceInstallationId",
    "investigationId", "fromCursor", "toCursor", "operations", "exclusions", "automaticSync",
    "networkingIncluded", "batchFingerprint"] rfl (by simp [RECORD_KEYS])]
  simp only [InvestigationSyncBatchV1.unsignedMembers, cons_append, nil_append,
    map_cons, map_nil, forall_mem_cons, CredentialFree, hoperations]
  constructor
  · rintro ⟨-, hsource, hinvestigation, hfrom, hto, hoperations, -, -, -, hfingerprint, -⟩
    exact ⟨hsource, hinvestigation, hfrom, hto, hoperations, hfingerprint⟩
  · intro h
    exact ⟨hschema, h.source, h.investigation, h.fromCursor, h.toCursor, h.operations, hexclusions,
      trivial, trivial, h.fingerprint, fun _ hmem => absurd hmem not_mem_nil⟩

/-! ## The chain -/

section

variable {rt : SyncRuntime} {b : InvestigationSyncBatchV1}

/-- The operations follow each other from a sequence and a fingerprint on, none with an id of the
list. -/
def Chained (rt : SyncRuntime) (b : InvestigationSyncBatchV1) :
    Nat → Option JsString → List JsString → List InvestigationSyncOperationV1 → Prop
  | _, _, _, [] => True
  | expected, previous, ids, o :: operations =>
    (ValidRow rt o.unsigned ∧ investigationSyncOperationFingerprint rt o = o.operationFingerprint) ∧
    o.sourceInstallationId = b.sourceInstallationId ∧ o.investigationId = b.investigationId ∧
    o.sourceSequence = expected ∧ o.previousOperationFingerprint = previous ∧
    o.operationId ∉ ids ∧
    Chained rt b (expected + 1) (some o.operationFingerprint) (o.operationId :: ids) operations

variable {expected : Nat} {previous : Option JsString} {ids : List JsString}
  {operations : List InvestigationSyncOperationV1}

theorem checkChain_ok {index : Nat} :
    checkChain rt b index expected previous ids operations = .ok () ↔
      Chained rt b expected previous ids operations := by
  induction operations generalizing index expected previous ids with
  | nil => simp [checkChain, Chained]
  | cons o operations ih =>
    simp only [checkChain, bind_ok, ensure_ok, exists_unit, validateOperation_ok, ih, Chained]

theorem Chained.valid (h : Chained rt b expected previous ids operations)
    {o : InvestigationSyncOperationV1} (ho : o ∈ operations) :
    ValidRow rt o.unsigned ∧ o.sourceInstallationId = b.sourceInstallationId ∧
      o.investigationId = b.investigationId ∧ expected ≤ o.sourceSequence := by
  induction operations generalizing expected previous ids with
  | nil => exact absurd ho not_mem_nil
  | cons o' operations ih =>
    obtain ⟨⟨hrow, -⟩, hsource, hinvestigation, hsequence, -, -, hrest⟩ := h
    rcases mem_cons.mp ho with rfl | ho
    · exact ⟨hrow, hsource, hinvestigation, hsequence.ge⟩
    · obtain ⟨hrow, hsource, hinvestigation, hle⟩ := ih hrest ho
      exact ⟨hrow, hsource, hinvestigation, by omega⟩

theorem Chained.fingerprint (h : Chained rt b expected previous ids operations)
    {o : InvestigationSyncOperationV1} (ho : o ∈ operations) :
    isSha256Hex o.operationFingerprint = true := by
  induction operations generalizing expected previous ids with
  | nil => exact absurd ho not_mem_nil
  | cons o' operations ih =>
    obtain ⟨⟨-, hfingerprint⟩, -, -, -, -, -, hrest⟩ := h
    rcases mem_cons.mp ho with rfl | ho
    · rw [← hfingerprint]
      exact rt.sha256_hex _
    · exact ih hrest ho

theorem Chained.ascending (h : Chained rt b expected previous ids operations) :
    operations.Pairwise fun o o' => o.sourceSequence < o'.sourceSequence := by
  induction operations generalizing expected previous ids with
  | nil => exact .nil
  | cons o operations ih =>
    obtain ⟨-, -, -, hsequence, -, -, hrest⟩ := h
    refine pairwise_cons.mpr ⟨fun o' ho' => ?_, ih hrest⟩
    have := (hrest.valid ho').2.2.2
    omega

theorem Chained.fresh (h : Chained rt b expected previous ids operations) :
    (operations.map (·.operationId)).Nodup ∧ ∀ o ∈ operations, o.operationId ∉ ids := by
  induction operations generalizing expected previous ids with
  | nil => exact ⟨nodup_nil, fun _ ho => absurd ho not_mem_nil⟩
  | cons o operations ih =>
    obtain ⟨-, -, -, -, -, hid, hrest⟩ := h
    obtain ⟨hnodup, hfresh⟩ := ih hrest
    refine ⟨nodup_cons.mpr ⟨fun hmem => ?_, hnodup⟩, fun o' ho' => ?_⟩
    · obtain ⟨o', ho', heq⟩ := mem_map.mp hmem
      exact hfresh o' ho' (heq ▸ mem_cons_self)
    · rcases mem_cons.mp ho' with rfl | ho'
      · exact hid
      · exact fun hmem => hfresh o' ho' (mem_cons_of_mem _ hmem)

theorem Chained.last {expected : Nat} {previous : Option JsString} {ids : List JsString}
    {operations : List InvestigationSyncOperationV1}
    (h : Chained rt b expected previous ids operations) {last : InvestigationSyncOperationV1}
    (hlast : operations.getLast? = some last) :
    last.sourceSequence + 1 = expected + operations.length := by
  induction operations generalizing expected previous ids with
  | nil => exact absurd hlast (by simp)
  | cons o operations ih =>
    obtain ⟨-, -, -, hsequence, -, -, hrest⟩ := h
    cases operations with
    | nil =>
      rw [getLast?_singleton, Option.some.injEq] at hlast
      rw [← hlast, hsequence]
      rfl
    | cons o' operations =>
      rw [getLast?_cons_cons] at hlast
      have := ih hrest hlast
      rw [length_cons] at this ⊢
      rw [length_cons]
      omega

/-- What `parseInvestigationSyncBatch` accepts. -/
structure BatchAccepted (rt : SyncRuntime) (b : InvestigationSyncBatchV1) : Prop where
  shape : BatchShape b
  credentials : CredentialFree b.toJson
  source : isInstallationId b.sourceInstallationId = true
  fromCursor : ValidCursor b.fromCursor
  toCursor : ValidCursor b.toCursor
  cursorSource : b.fromCursor.sourceInstallationId = b.sourceInstallationId ∧
    b.toCursor.sourceInstallationId = b.sourceInstallationId
  investigation : isOpaqueId b.investigationId = true
  exclusions : b.exclusions = INVESTIGATION_SYNC_EXCLUSIONS
  dryRun : b.automaticSync = false ∧ b.networkingIncluded = false
  chain : Chained rt b (b.fromCursor.throughSequence + 1) b.fromCursor.lastOperationFingerprint []
    b.operations
  tip : b.toCursor = tipCursor b.sourceInstallationId b.fromCursor b.operations
  fingerprint : investigationSyncBatchFingerprint rt b = b.batchFingerprint

theorem canonicalize_of_accepted (h : BatchAccepted rt b) :
    canonicalizeInvestigationSyncBatch rt b = b := by
  have hsorted : b.operations.insertionSort (fun o o' => sequenceLe o.unsigned o'.unsigned) =
      b.operations := by
    refine List.Pairwise.insertionSort_eq (h.chain.ascending.imp fun hlt => ?_)
    exact Nat.le_of_lt hlt
  have hsame : { b with
      operations := b.operations.insertionSort (fun o o' => sequenceLe o.unsigned o'.unsigned),
      exclusions := INVESTIGATION_SYNC_EXCLUSIONS } = b := by
    rw [hsorted, ← h.exclusions]
  unfold canonicalizeInvestigationSyncBatch
  dsimp only
  rw [hsame, h.fingerprint]
  exact hsame

theorem parseInvestigationSyncBatch_ok {b' : InvestigationSyncBatchV1} :
    parseInvestigationSyncBatch rt b = .ok b' ↔ BatchAccepted rt b ∧ b' = b := by
  simp only [parseInvestigationSyncBatch, bind_ok, ensure_ok, exists_unit, batch_checkShape_ok,
    assertNoCredentialLeakage_ok, requireInstallationId, validateCursor_ok, requireOpaqueId,
    checkChain_ok, requireSha256, pure_ok]
  constructor
  · rintro ⟨hshape, hcredentials, hsource, hfrom, hto, hcursor, hinvestigation, hexclusions, hdry,
      hchain, htip, -, hfingerprint, rfl⟩
    have haccepted : BatchAccepted rt b :=
      ⟨hshape, hcredentials, hsource, hfrom, hto, hcursor, hinvestigation,
        exclusions_inj hexclusions, hdry, hchain, cursor_inj htip, hfingerprint⟩
    exact ⟨haccepted, canonicalize_of_accepted haccepted⟩
  · rintro ⟨h, rfl⟩
    refine ⟨h.shape, h.credentials, h.source, h.fromCursor, h.toCursor, h.cursorSource,
      h.investigation, by rw [h.exclusions], h.dryRun, h.chain, by rw [← h.tip], ?_, h.fingerprint,
      canonicalize_of_accepted h⟩
    rw [← h.fingerprint]
    exact rt.sha256_hex _

end

end ContextDesk
