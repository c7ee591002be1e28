import ContextDesk.Cases.Labels
import ContextDesk.Portable.Bundle
import ContextDesk.Lib.Ladder

/-!
# Destination ids

The id that an object gets at a destination is a UUID made from the name of its rung: where it
comes from, its kind, its id there and a counter. Different rungs have different names, and what is
made of a name has the form of a UUID.
-/

open List

namespace ContextDesk

open Lib

/-! ## The form of a UUID -/

def isRfc4122Uuid (value : JsString) : Bool := RFC4122_UUID_RE value

def hexByte (b : UInt8) : JsString :=
  [JsonText.hexDigit (b.toUInt16 / 16), JsonText.hexDigit (b.toUInt16 % 16)]

/-- The first sixteen bytes in hexadecimal, in five groups. -/
def formatUuid (bytes : Fin 20 → UInt8) : JsString :=
  let hex := ((finRange 20).take 16).flatMap fun i => hexByte (bytes i)
  hex.take 8 ++ 45 :: ((hex.drop 8).take 4 ++ 45 :: ((hex.drop 12).take 4 ++
    45 :: ((hex.drop 16).take 4 ++ 45 :: hex.drop 20)))

section

-- the SHA-1 digest, byte by byte
variable (sha1 : List UInt8 → Fin 20 → UInt8)

/-- The digest with the version and the variant of a UUID. -/
def uuidV5Bytes (namespaceUuid : List UInt8) (name : JsString) (i : Fin 20) : UInt8 :=
  let hash := sha1 (namespaceUuid ++ NodeBuffer.toUtf8 name)
  if i = 6 then (hash 6 &&& 0x0f) ||| 0x50
  else if i = 8 then (hash 8 &&& 0x3f) ||| 0x80
  else hash i

def uuidV5 (namespaceUuid : List UInt8) (name : JsString) : JsString :=
  formatUuid (uuidV5Bytes sha1 namespaceUuid name)

/-- The bytes of `6ba7b810-9dad-11d1-80b4-00c04fd430c8`. -/
def RFC4122_DNS_NAMESPACE : List UInt8 :=
  [0x6b, 0xa7, 0xb8, 0x10, 0x9d, 0xad, 0x11, 0xd1, 0x80, 0xb4, 0x00, 0xc0, 0x4f, 0xd4, 0x30, 0xc8]

def PORTABLE_REMAP_NAMESPACE_UUID : List UInt8 :=
  ((finRange 20).take 16).map <| uuidV5Bytes sha1 RFC4122_DNS_NAMESPACE
    (JsString.ofString "cd-collab.investigation-portable.remap.v1")

def remapName (sourceInstallationId : JsString) (kind : PortableObjectKind) (sourceId : JsString)
    (collisionCounter : Nat) : JsString :=
  sourceInstallationId ++ 58 :: (JsString.ofString kind.text ++
    58 :: (sourceId ++ 58 :: numeralOf collisionCounter))

def portableDestinationUuid (sourceInstallationId : JsString) (kind : PortableObjectKind)
    (sourceId : JsString) (collisionCounter : Nat) : JsString :=
  uuidV5 sha1 (PORTABLE_REMAP_NAMESPACE_UUID sha1)
    (remapName sourceInstallationId kind sourceId collisionCounter)

theorem hexUnit_hexDigit {n : UInt16} (h : n < 16) : isHexUnit (JsonText.hexDigit n) = true := by
  have hall : ∀ k < 16, isHexUnit (JsonText.hexDigit (UInt16.ofNat k)) = true := by decide
  have := hall n.toNat (UInt16.lt_iff_toNat_lt.mp h)
  rwa [UInt16.ofNat_toNat] at this

theorem hexUnit_high (b : UInt8) : isHexUnit (JsonText.hexDigit (b.toUInt16 / 16)) = true := by
  refine hexUnit_hexDigit ?_
  have hb : b.toNat < 256 := b.toNat_lt
  rw [UInt16.lt_iff_toNat_lt, UInt16.toNat_div, UInt8.toNat_toUInt16]
  show b.toNat / 16 < 16
  omega

theorem hexUnit_low (b : UInt8) : isHexUnit (JsonText.hexDigit (b.toUInt16 % 16)) = true := by
  refine hexUnit_hexDigit ?_
  rw [UInt16.lt_iff_toNat_lt, UInt16.toNat_mod]
  exact Nat.mod_lt _ (by decide)

set_option maxRecDepth 4000 in
theorem version_digit (b : UInt8) :
    JsonText.hexDigit (((b &&& 0x0f) ||| 0x50).toUInt16 / 16) = 53 := by
  have hall : ∀ b : Fin 256, JsonText.hexDigit
      (((UInt8.ofNat b.val &&& 0x0f) ||| 0x50).toUInt16 / 16) = 53 := by decide
  have := hall ⟨b.toNat, b.toNat_lt⟩
  rwa [UInt8.ofNat_toNat] at this

set_option maxRecDepth 4000 in
theorem variant_digit (b : UInt8) :
    JsonText.hexDigit (((b &&& 0x3f) ||| 0x80).toUInt16 / 16) ∈ ([56, 57, 97, 98] : JsString) := by
  have hall : ∀ b : Fin 256, JsonText.hexDigit
      (((UInt8.ofNat b.val &&& 0x3f) ||| 0x80).toUInt16 / 16) ∈ ([56, 57, 97, 98] : JsString) := by
    decide
  have := hall ⟨b.toNat, b.toNat_lt⟩
  rwa [UInt8.ofNat_toNat] at this

theorem isRfc4122Uuid_uuidV5 (namespaceUuid : List UInt8) (name : JsString) :
    isRfc4122Uuid (uuidV5 sha1 namespaceUuid name) = true := by
  obtain ⟨bytes, hbytes⟩ : ∃ bytes, bytes = uuidV5Bytes sha1 namespaceUuid name := ⟨_, rfl⟩
  have h6 : JsonText.hexDigit ((bytes 6).toUInt16 / 16) = 53 := by
    rw [hbytes]
    exact version_digit _
  have h8 : JsonText.hexDigit ((bytes 8).toUInt16 / 16) ∈ ([56, 57, 97, 98] : JsString) := by
    rw [hbytes]
    exact variant_digit _
  have hrange : (finRange 20).take 16 =
      [0, 1, 2, 3, 4, 5, 6, 7, 8, 9, 10, 11, 12, 13, 14, 15] := by rfl
  rw [uuidV5, ← hbytes, isRfc4122Uuid, RFC4122_UUID_RE, formatUuid, hrange]
  simpa [hexByte, matchesUnits, uuidUnits, hexUnit_high, hexUnit_low, h6, or_assoc] using h8

end

/-! ## Different rungs have different names -/

theorem colon_notMem_numeralOf (n : Nat) : (58 : UInt16) ∉ numeralOf n := by
  intro h
  exact absurd (digits_decimal h) (by decide)

theorem append_cons_inj {α : Type} {a : α} {s s' t t' : List α} (ht : a ∉ t) (ht' : a ∉ t')
    (h : s ++ a :: t = s' ++ a :: t') : s = s' ∧ t = t' := by
  obtain ⟨l, hl, hl'⟩ | ⟨l, hl, hl'⟩ := append_eq_append_iff.mp h
  · cases l with
    | nil =>
      rw [append_nil] at hl
      exact ⟨hl.symm, (cons.inj hl').2⟩
    | cons b l =>
      refine absurd ?_ ht
      rw [(cons.inj hl').2]
      simp
  · cases l with
    | nil =>
      rw [append_nil] at hl
      exact ⟨hl, (cons.inj hl').2.symm⟩
    | cons b l =>
      refine absurd ?_ ht'
      rw [(cons.inj hl').2]
      simp

theorem cons_append_inj {α : Type} {a : α} {s s' t t' : List α} (hs : a ∉ s) (hs' : a ∉ s')
    (h : s ++ a :: t = s' ++ a :: t') : s = s' ∧ t = t' := by
  have hreverse := congrArg List.reverse h
  simp only [reverse_append, reverse_cons, append_assoc, cons_append,
    nil_append] at hreverse
  obtain ⟨ht, hs⟩ := append_cons_inj (mt mem_reverse.mp hs) (mt mem_reverse.mp hs')
    hreverse
  exact ⟨reverse_injective hs, reverse_injective ht⟩

theorem colon_notMem_kind (kind : PortableObjectKind) :
    (58 : UInt16) ∉ JsString.ofString kind.text := by
  cases kind <;> decide

/-- The kind of a text, `isPortableObjectKind`. -/
def objectKindOf (text : JsString) : Option PortableObjectKind :=
  PORTABLE_OBJECT_KINDS.find? fun kind => JsString.ofString kind.text = text

theorem objectKindOf_text (kind : PortableObjectKind) :
    objectKindOf (JsString.ofString kind.text) = some kind := by
  cases kind <;> decide

theorem kind_text_inj {kind kind' : PortableObjectKind}
    (h : JsString.ofString kind.text = JsString.ofString kind'.text) : kind = kind' := by
  have := objectKindOf_text kind
  rw [h, objectKindOf_text] at this
  exact (Option.some.inj this).symm

theorem remapName_inj {inst : JsString} {kind kind' : PortableObjectKind} {id id' : JsString}
    {c c' : Nat} (h : remapName inst kind id c = remapName inst kind' id' c') :
    kind = kind' ∧ id = id' ∧ c = c' := by
  obtain ⟨hkind, hrest⟩ := cons_append_inj (colon_notMem_kind kind) (colon_notMem_kind kind')
    (cons.inj (append_cancel_left h)).2
  obtain ⟨hid, hnumeral⟩ :=
    append_cons_inj (colon_notMem_numeralOf c) (colon_notMem_numeralOf c') hrest
  exact ⟨kind_text_inj hkind, hid,
    JsonText.decimal_injective (NumberText.ext_text hnumeral)⟩

/-! ## The units of an id -/

theorem idUnit_of_hexUnit {u : UInt16} (h : isHexUnit u = true) : isIdUnit u = true := by
  rw [isIdUnit, show isLowerHex u = true from h, Bool.true_or]

variable {s : JsString}

theorem idUnits_of_matches {units : List (UInt16 → Bool)}
    (hunits : ∀ p ∈ units, ∀ u, p u = true → isIdUnit u = true) (h : matchesUnits units s = true) :
    ∀ u ∈ s, isIdUnit u = true := by
  rw [matchesUnits, Bool.and_eq_true, beq_iff_eq] at h
  obtain ⟨hlength, hall⟩ := h
  induction s generalizing units with
  | nil => exact fun u hu => absurd hu not_mem_nil
  | cons v s ih =>
    cases units with
    | nil => cases hlength
    | cons p units =>
      rw [zipWith_cons_cons, all_cons, Bool.and_eq_true] at hall
      intro u hu
      rcases mem_cons.mp hu with rfl | hu
      · exact hunits p mem_cons_self u hall.1
      · exact ih (fun q hq => hunits q (mem_cons_of_mem _ hq)) (Nat.succ.inj hlength) hall.2 u
          hu

theorem idUnits_of_uuid (h : isRfc4122Uuid s = true) :
    s.length = 36 ∧ ∀ u ∈ s, isIdUnit u = true := by
  refine ⟨?_, idUnits_of_matches ?_ h⟩
  · rw [isRfc4122Uuid, RFC4122_UUID_RE, matchesUnits, Bool.and_eq_true, beq_iff_eq] at h
    exact h.1
  · have hhex : ∀ p : UInt16 → Bool, p = isHexUnit → ∀ u, p u = true → isIdUnit u = true := by
      rintro p rfl u hu
      exact idUnit_of_hexUnit hu
    have hdash : ∀ u : UInt16, (u == 45) = true → isIdUnit u = true := fun u hu => by
      rw [isIdUnit, hu, Bool.or_true]
    intro p hp
    simp only [uuidUnits, mem_append, mem_cons, mem_replicate, not_mem_nil,
      or_false] at hp
    rcases hp with (((((((hp | rfl) | hp) | rfl) | rfl | hp) | rfl) | rfl | hp) | rfl) | hp
    · exact hhex p hp.2
    · exact hdash
    · exact hhex p hp.2
    · exact hdash
    · intro u hu
      simp only [isIdUnit, isLowerHex, isDigitUnit, Bool.and_eq_true, decide_eq_true_eq,
        UInt16.le_iff_toNat_le, UInt16.reduceToNat, Bool.or_eq_true, beq_iff_eq] at hu ⊢
      omega
    · exact hhex p hp.2
    · exact hdash
    · intro u hu
      simp only [Bool.or_eq_true, beq_iff_eq] at hu
      rcases hu with ((rfl | rfl) | rfl) | rfl <;> rfl
    · exact hhex p hp.2
    · exact hdash
    · exact hhex p hp.2

/-- A text of such units is an identifier. -/
theorem safeIdentifier_of_idUnits (hne : s ≠ []) (h : ∀ u ∈ s, isIdUnit u = true) :
    SafeIdentifier s := by
  constructor
  · obtain ⟨u, rest, rfl⟩ := exists_cons_of_ne_nil hne
    have hu := idUnit_toNat (h u mem_cons_self)
    have hspace : JsString.isWhiteSpace u = false := by
      simp only [JsString.isWhiteSpace, Bool.or_eq_false_iff, Bool.and_eq_false_iff,
        decide_eq_false_iff_not, UInt16.le_iff_toNat_le, beq_eq_false_iff_ne, ne_eq,
        ← UInt16.toNat_inj, UInt16.reduceToNat]
      omega
    rw [JsString.trim, dropWhile_cons_of_neg (by rw [hspace]; exact Bool.false_ne_true)]
    intro htrim
    have := rdropWhile_eq_nil_iff.mp htrim u mem_cons_self
    rw [hspace] at this
    exact Bool.false_ne_true this
  · have hascii : ∀ u ∈ s, u.toNat < 0x80 := fun u hu => by
      have := idUnit_toNat (h u hu)
      omega
    rw [hasDisallowedIdentifierCodePoint, NodeBuffer.toChars_of_ascii hascii, any_map,
      any_eq_false]
    intro u hu
    have hunit : 45 ≤ u.toNat ∧ u.toNat ≤ 102 := by
      have := idUnit_toNat (h u hu)
      omega
    simp only [DISALLOWED_IDENTIFIER_CODE_POINT_RANGES, Function.comp_apply,
      NodeBuffer.toNat_ofNat (n := u.toNat) (by omega), any_cons, any_nil,
      Bool.or_eq_true, Bool.and_eq_true, decide_eq_true_eq, Bool.false_eq_true, or_false]
    intro hrange
    omega

end ContextDesk

/-!
## The ids of an import

The id remap of the preflight: every id of the bundle gets an id at the destination. The rungs that
are occupied are those of the catalog of the destination and those given to other ids of the
namespace, which are on other ladders.
-/

namespace ContextDesk

open Lib Lib.Ladder

inductive PortableIdMintingMode where
  | minted
  | content_addressed
  | destination_sequenced
  deriving DecidableEq

def portableIdMintingMode : PortableObjectKind → PortableIdMintingMode
  | .content => .content_addressed
  | .timeline => .destination_sequenced
  | _ => .minted

def portableMintsDestinationId (kind : PortableObjectKind) : Bool :=
  portableIdMintingMode kind = .minted

def MAX_DETERMINISTIC_REMAP_ATTEMPTS : Nat := 256

inductive CollisionPolicy where
  | fail
  | remap_deterministic
  deriving DecidableEq

/-- The ids of a catalog by namespace; one that is absent has none. -/
abbrev CatalogIds := PortableObjectKind → List JsString

structure PreflightRequest where
  collisionPolicy : CollisionPolicy
  objectIds : CatalogIds

structure PreflightIdRemap where
  namespace_ : PortableObjectKind
  sourceId : JsString
  destinationId : JsString
  deriving DecidableEq

structure PreflightWarning where
  code : String
  path : JsString
  detail : String
  deriving DecidableEq

/-- The ids so far, the occupied ids of the namespace, and the counts of the report. -/
structure RemapState where
  occupied : List JsString
  idRemap : List PreflightIdRemap
  referential : List PreflightWarning
  create : Nat
  conflict : Nat
  blocked : Nat

def collisionPath (kind : PortableObjectKind) (sourceId : JsString) : JsString :=
  JsString.ofString kind.text ++ 58 :: sourceId

def idCollision (kind : PortableObjectKind) (sourceId : JsString) : PreflightWarning :=
  ⟨"id_collision", collisionPath kind sourceId,
    "deterministic destination id already exists at the destination"⟩

section

variable (sha1 : List UInt8 → Fin 20 → UInt8) (installationId : JsString)

abbrev rungOf (kind : PortableObjectKind) (sourceId : JsString) (attempt : Nat) : JsString :=
  portableDestinationUuid sha1 installationId kind sourceId attempt

def chooseDeterministicRemap (kind : PortableObjectKind) (sourceId : JsString)
    (occupied : List JsString) : Outcome JsString :=
  match firstFree (rungOf sha1 installationId kind) MAX_DETERMINISTIC_REMAP_ATTEMPTS occupied
      sourceId with
  | some attempt => .ok (portableDestinationUuid sha1 installationId kind sourceId attempt)
  | none => .error (ContractViolation ("$.destination.objectIds." ++ kind.text)
      ("deterministic remap space exhausted for " ++ keyText sourceId))

def remapId (policy : CollisionPolicy) (kind : PortableObjectKind) (state : RemapState)
    (sourceId : JsString) : Outcome RemapState :=
  let destinationId :=
    if portableIdMintingMode kind = .content_addressed then sourceId
    else portableDestinationUuid sha1 installationId kind sourceId 0
  let entry : PreflightIdRemap := ⟨kind, sourceId, destinationId⟩
  if portableMintsDestinationId kind = false then
    .ok { state with idRemap := state.idRemap ++ [entry], create := state.create + 1 }
  else if destinationId ∉ state.occupied then
    .ok { state with
      idRemap := state.idRemap ++ [entry]
      occupied := destinationId :: state.occupied
      create := state.create + 1 }
  else
    match policy with
    | .fail =>
      .ok { state with
        conflict := state.conflict + 1
        blocked := state.blocked + 1
        idRemap := state.idRemap ++ [entry]
        referential := state.referential ++ [idCollision kind sourceId] }
    | .remap_deterministic => do
      let remapped ← chooseDeterministicRemap sha1 installationId kind sourceId state.occupied
      pure { state with
        occupied := remapped :: state.occupied
        idRemap := state.idRemap ++ [⟨kind, sourceId, remapped⟩]
        create := state.create + 1 }

def remapIds (policy : CollisionPolicy) (kind : PortableObjectKind) :
    RemapState → List JsString → Outcome RemapState
  | state, [] => .ok state
  | state, sourceId :: ids => do
    let state ← remapId sha1 installationId policy kind state sourceId
    remapIds policy kind state ids

/-- The ids of a namespace in the order of their units. -/
def sortedIds (bundle : PortableInvestigation) (kind : PortableObjectKind) : List JsString :=
  (portableNamespaceIds bundle kind).insertionSort fun s t => codeUnitsLe s t = true

end

section

variable (sha1 : List UInt8 → Fin 20 → UInt8) (bundle : PortableInvestigation)
  (request : PreflightRequest)

def remapNamespaces : RemapState → List PortableObjectKind → Outcome RemapState
  | state, [] => .ok state
  | state, kind :: kinds => do
    let occupied := (request.objectIds kind).filter fun id => isRfc4122Uuid id
    let state ← remapIds sha1 bundle.sourceInstallationId request.collisionPolicy kind
      { state with occupied } (sortedIds bundle kind)
    remapNamespaces state kinds

/-- What the checks of the request ask of the ids of the catalog. -/
def assertCatalogIds (objectIds : CatalogIds) : Outcome Unit :=
  ensureAll (fun kind => ensureAll (fun id => do
      requireSafeIdentifier ("$.destination.objectIds." ++ kind.text) id
      ensure (FORBIDDEN_VALUE_RE.test id = false)
        (ContractViolation ("$.destination.objectIds." ++ kind.text) CREDENTIAL_RULES.textError))
    (objectIds kind)) PORTABLE_OBJECT_KINDS

/-- The part of `preflightPortableInvestigation` that gives out ids. -/
def preflightIdRemap : Outcome RemapState := do
  assertCatalogIds request.objectIds
  remapNamespaces sha1 bundle request ⟨[], [], [], 0, 0, 0⟩ PORTABLE_OBJECT_KINDS

end

end ContextDesk
