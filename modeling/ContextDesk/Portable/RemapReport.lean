import ContextDesk.Portable.Closure

/-!
# What the preflight reports

Where the UUIDs of different rungs differ, every id of the bundle finds its ladder as the catalog
leaves it, whatever ids were given out before. So the report can be written down id by id.
-/

namespace ContextDesk

open Lib Lib.Ladder List

section

variable (sha1 : List UInt8 → Fin 20 → UInt8) (installationId : JsString)
  (policy : CollisionPolicy) (objectIds : CatalogIds)

/-- The lowest rung of the ladder of an id that is not in the catalog. -/
def lowestFreeRung (kind : PortableObjectKind) (sourceId : JsString) : Option JsString :=
  (firstFree (rungOf sha1 installationId kind) MAX_DETERMINISTIC_REMAP_ATTEMPTS (objectIds kind)
    sourceId).map (rungOf sha1 installationId kind sourceId)

/-- What an id gets, whatever else the bundle holds. -/
def destinationOf (kind : PortableObjectKind) (sourceId : JsString) : JsString :=
  match portableIdMintingMode kind with
  | .content_addressed => sourceId
  | .destination_sequenced => rungOf sha1 installationId kind sourceId 0
  | .minted =>
    match policy with
    | .fail => rungOf sha1 installationId kind sourceId 0
    | .remap_deterministic => (lowestFreeRung sha1 installationId objectIds kind sourceId).getD []

def entryOf (kind : PortableObjectKind) (sourceId : JsString) : PreflightIdRemap :=
  ⟨kind, sourceId, destinationOf sha1 installationId policy objectIds kind sourceId⟩

def Conflicts (kind : PortableObjectKind) (sourceId : JsString) : Prop :=
  portableMintsDestinationId kind = true ∧ policy = .fail ∧
    rungOf sha1 installationId kind sourceId 0 ∈ objectIds kind

instance (kind : PortableObjectKind) (sourceId : JsString) :
    Decidable (Conflicts sha1 installationId policy objectIds kind sourceId) :=
  inferInstanceAs (Decidable (_ ∧ _ ∧ _))

end

/-- Different names of rungs of the ids of a bundle have different UUIDs. -/
def RungsDistinct (sha1 : List UInt8 → Fin 20 → UInt8) (bundle : PortableInvestigation) : Prop :=
  Set.InjOn (uuidV5 sha1 (PORTABLE_REMAP_NAMESPACE_UUID sha1))
    {name | ∃ kind, ∃ id ∈ portableNamespaceIds bundle kind,
      ∃ c < MAX_DETERMINISTIC_REMAP_ATTEMPTS,
        name = remapName bundle.sourceInstallationId kind id c}

/-- Each minted id has a rung that is not in the catalog. -/
def FreeRungs (sha1 : List UInt8 → Fin 20 → UInt8) (bundle : PortableInvestigation)
    (objectIds : CatalogIds) : Prop :=
  ∀ kind, portableMintsDestinationId kind = true → ∀ id ∈ portableNamespaceIds bundle kind,
    ∃ c < MAX_DETERMINISTIC_REMAP_ATTEMPTS,
      rungOf sha1 bundle.sourceInstallationId kind id c ∉ objectIds kind

variable {sha1 : List UInt8 → Fin 20 → UInt8} {bundle : PortableInvestigation}
  {installationId : JsString} {policy : CollisionPolicy} {objectIds : CatalogIds}
  {kind kind' : PortableObjectKind} {id id' : JsString} {state : RemapState}

theorem RungsDistinct.inj (h : RungsDistinct sha1 bundle)
    (hid : id ∈ portableNamespaceIds bundle kind) (hid' : id' ∈ portableNamespaceIds bundle kind')
    {c c' : Nat} (hc : c < MAX_DETERMINISTIC_REMAP_ATTEMPTS)
    (hc' : c' < MAX_DETERMINISTIC_REMAP_ATTEMPTS)
    (heq : rungOf sha1 bundle.sourceInstallationId kind id c =
      rungOf sha1 bundle.sourceInstallationId kind' id' c') : kind = kind' ∧ id = id' ∧ c = c' :=
  remapName_inj (h ⟨kind, id, hid, c, hc, rfl⟩ ⟨kind', id', hid', c', hc', rfl⟩ heq)

theorem mem_sortedIds : id ∈ sortedIds bundle kind ↔ id ∈ portableNamespaceIds bundle kind :=
  (perm_insertionSort _ _).mem_iff

theorem nodup_sortedIds (kind : PortableObjectKind) : (sortedIds bundle kind).Nodup :=
  (perm_insertionSort _ _).nodup_iff.mpr (nodup_dedup _)

theorem RungsDistinct.apart (h : RungsDistinct sha1 bundle) (kind : PortableObjectKind) :
    Apart (rungOf sha1 bundle.sourceInstallationId kind) MAX_DETERMINISTIC_REMAP_ATTEMPTS
      (sortedIds bundle kind) := fun _ hi _ hj _ hc _ hd heq =>
  (h.inj (mem_sortedIds.mp hi) (mem_sortedIds.mp hj) hc hd heq).2

/-! ## One id -/

/-- Every rung is a UUID, so the catalog tells about rungs what its UUIDs do. -/
theorem rung_mem_filter {c : Nat} :
    rungOf sha1 installationId kind id c ∈ (objectIds kind).filter (fun id => isRfc4122Uuid id) ↔
      rungOf sha1 installationId kind id c ∈ objectIds kind := by
  rw [mem_filter, and_iff_left]
  exact isRfc4122Uuid_uuidV5 sha1 _ _

/-- The occupied ids tell of the ladders of the ids that remain what the catalog does. -/
abbrev Undisturbed (sha1 : List UInt8 → Fin 20 → UInt8) (installationId : JsString)
    (objectIds : CatalogIds) (kind : PortableObjectKind) (ids occupied : List JsString) : Prop :=
  Ladder.Agrees (rungOf sha1 installationId kind) MAX_DETERMINISTIC_REMAP_ATTEMPTS ids occupied
    (objectIds kind)

theorem remapId_unminted (hmints : portableMintsDestinationId kind = false) :
    remapId sha1 installationId policy kind state id = .ok { state with
      idRemap := state.idRemap ++ [entryOf sha1 installationId policy objectIds kind id]
      create := state.create + 1 } := by
  have hmode : portableIdMintingMode kind ≠ .minted := of_decide_eq_false hmints
  have hdestination : destinationOf sha1 installationId policy objectIds kind id =
      if portableIdMintingMode kind = .content_addressed then id
      else portableDestinationUuid sha1 installationId kind id 0 := by
    unfold destinationOf
    cases hmode' : portableIdMintingMode kind with
    | minted => exact absurd hmode' hmode
    | content_addressed => rfl
    | destination_sequenced => rfl
  rw [remapId.eq_def, if_pos hmints, entryOf, hdestination]

section

variable (hmints : portableMintsDestinationId kind = true)

include hmints

theorem minted_mode : portableIdMintingMode kind = .minted := of_decide_eq_true hmints

theorem rungZero_eq : (if portableIdMintingMode kind = .content_addressed then id
    else portableDestinationUuid sha1 installationId kind id 0) =
      rungOf sha1 installationId kind id 0 :=
  if_neg fun h => PortableIdMintingMode.noConfusion ((minted_mode hmints).symm.trans h)

theorem remapId_free (hfree : rungOf sha1 installationId kind id 0 ∉ state.occupied) :
    remapId sha1 installationId policy kind state id = .ok { state with
      idRemap := state.idRemap ++ [⟨kind, id, rungOf sha1 installationId kind id 0⟩]
      occupied := rungOf sha1 installationId kind id 0 :: state.occupied
      create := state.create + 1 } := by
  rw [remapId.eq_def, rungZero_eq hmints, if_neg (by simp [hmints]),
    if_pos hfree]

theorem remapId_fail (htaken : rungOf sha1 installationId kind id 0 ∈ state.occupied) :
    remapId sha1 installationId .fail kind state id = .ok { state with
      conflict := state.conflict + 1
      blocked := state.blocked + 1
      idRemap := state.idRemap ++ [⟨kind, id, rungOf sha1 installationId kind id 0⟩]
      referential := state.referential ++ [idCollision kind id] } := by
  rw [remapId.eq_def, rungZero_eq hmints, if_neg (by simp [hmints]),
    if_neg (not_not.mpr htaken)]

theorem remapId_remapped (htaken : rungOf sha1 installationId kind id 0 ∈ state.occupied) {c : Nat}
    (hchosen : firstFree (rungOf sha1 installationId kind) MAX_DETERMINISTIC_REMAP_ATTEMPTS
      state.occupied id = some c) :
    remapId sha1 installationId .remap_deterministic kind state id = .ok { state with
      occupied := rungOf sha1 installationId kind id c :: state.occupied
      idRemap := state.idRemap ++ [⟨kind, id, rungOf sha1 installationId kind id c⟩]
      create := state.create + 1 } := by
  rw [remapId.eq_def, rungZero_eq hmints, if_neg (by simp [hmints]),
    if_neg (not_not.mpr htaken)]
  simp only [chooseDeterministicRemap, hchosen]
  rfl

theorem entryOf_fail : entryOf sha1 installationId .fail objectIds kind id =
    ⟨kind, id, rungOf sha1 installationId kind id 0⟩ := by
  rw [entryOf, destinationOf, minted_mode hmints]

theorem entryOf_remapped {c : Nat}
    (hchosen : firstFree (rungOf sha1 installationId kind) MAX_DETERMINISTIC_REMAP_ATTEMPTS
      (objectIds kind) id = some c) :
    entryOf sha1 installationId .remap_deterministic objectIds kind id =
      ⟨kind, id, rungOf sha1 installationId kind id c⟩ := by
  rw [entryOf, destinationOf, minted_mode hmints]
  simp only [lowestFreeRung, hchosen, Option.map_some, Option.getD_some]

theorem entryOf_free (hfree : rungOf sha1 installationId kind id 0 ∉ objectIds kind) :
    entryOf sha1 installationId policy objectIds kind id =
      ⟨kind, id, rungOf sha1 installationId kind id 0⟩ := by
  cases policy with
  | fail => exact entryOf_fail hmints
  | remap_deterministic =>
    exact entryOf_remapped hmints (firstFree_eq_some.mpr
      ⟨by decide, hfree, fun d hd => absurd hd (Nat.not_lt_zero d)⟩)

end

/-- What one id adds to the report, and to the occupied ids at most a rung of its own. -/
theorem remapId_ok {ids : List JsString}
    (hagrees : Undisturbed sha1 installationId objectIds kind (id :: ids) state.occupied)
    (hfree : policy = .remap_deterministic → portableMintsDestinationId kind = true →
      ∃ c < MAX_DETERMINISTIC_REMAP_ATTEMPTS,
        rungOf sha1 installationId kind id c ∉ objectIds kind) :
    ∃ state', remapId sha1 installationId policy kind state id = .ok state' ∧
      state'.idRemap = state.idRemap ++ [entryOf sha1 installationId policy objectIds kind id] ∧
      state'.referential = state.referential ++
        (if Conflicts sha1 installationId policy objectIds kind id then [idCollision kind id]
          else []) ∧
      (state'.occupied = state.occupied ∨ ∃ c < MAX_DETERMINISTIC_REMAP_ATTEMPTS,
        state'.occupied = rungOf sha1 installationId kind id c :: state.occupied) := by
  cases hmints : portableMintsDestinationId kind with
  | false =>
    refine ⟨_, remapId_unminted hmints, rfl, ?_, .inl rfl⟩
    rw [if_neg fun h => Bool.false_ne_true (hmints.symm.trans h.1), append_nil]
  | true =>
    have hoccupied := hagrees id mem_cons_self 0 (by decide)
    by_cases htaken : rungOf sha1 installationId kind id 0 ∈ objectIds kind
    · cases policy with
      | fail =>
        refine ⟨_, remapId_fail hmints (hoccupied.mpr htaken), ?_, ?_, .inl rfl⟩
        · rw [entryOf_fail hmints]
        · rw [if_pos ⟨hmints, rfl, htaken⟩]
      | remap_deterministic =>
        obtain ⟨c, hchosen⟩ := Option.isSome_iff_exists.mp
          (firstFree_isSome.mpr (hfree rfl hmints))
        refine ⟨_, remapId_remapped hmints (hoccupied.mpr htaken) (hagrees.head.trans hchosen), ?_,
          ?_, .inr ⟨c, (firstFree_eq_some.mp hchosen).1, rfl⟩⟩
        · rw [entryOf_remapped hmints hchosen]
        · rw [if_neg fun h => CollisionPolicy.noConfusion h.2.1, append_nil]
    · refine ⟨_, remapId_free hmints (mt hoccupied.mp htaken), ?_, ?_, .inr ⟨0, by decide, rfl⟩⟩
      · rw [entryOf_free hmints htaken]
      · rw [if_neg fun h => htaken h.2.2, append_nil]

/-! ## All ids -/

/-- The conflicts among some ids, as they are reported. -/
def collisionsOf (sha1 : List UInt8 → Fin 20 → UInt8) (installationId : JsString)
    (policy : CollisionPolicy) (objectIds : CatalogIds) (kind : PortableObjectKind)
    (ids : List JsString) : List PreflightWarning :=
  (ids.filter fun id => Conflicts sha1 installationId policy objectIds kind id).map
    (idCollision kind)

theorem collisionsOf_cons (ids : List JsString) :
    collisionsOf sha1 installationId policy objectIds kind (id :: ids) =
      (if Conflicts sha1 installationId policy objectIds kind id then [idCollision kind id] else [])
        ++ collisionsOf sha1 installationId policy objectIds kind ids := by
  unfold collisionsOf
  by_cases h : Conflicts sha1 installationId policy objectIds kind id
  · rw [if_pos h, filter_cons, if_pos (decide_eq_true h), map_cons,
      singleton_append]
  · rw [if_neg h, filter_cons, if_neg (by rw [decide_eq_true_iff]; exact h), nil_append]

theorem remapIds_ok (state : RemapState) {ids : List JsString} (hnodup : ids.Nodup)
    (hapart : Apart (rungOf sha1 installationId kind) MAX_DETERMINISTIC_REMAP_ATTEMPTS ids)
    (hagrees : Undisturbed sha1 installationId objectIds kind ids state.occupied)
    (hfree : policy = .remap_deterministic → portableMintsDestinationId kind = true → ∀ id ∈ ids,
      ∃ c < MAX_DETERMINISTIC_REMAP_ATTEMPTS,
        rungOf sha1 installationId kind id c ∉ objectIds kind) :
    ∃ state', remapIds sha1 installationId policy kind state ids = .ok state' ∧
      state'.idRemap =
        state.idRemap ++ ids.map (entryOf sha1 installationId policy objectIds kind) ∧
      state'.referential =
        state.referential ++ collisionsOf sha1 installationId policy objectIds kind ids := by
  induction ids generalizing state with
  | nil => exact ⟨state, rfl, (append_nil _).symm, (append_nil _).symm⟩
  | cons id ids ih =>
    obtain ⟨hid, hids⟩ := nodup_cons.mp hnodup
    obtain ⟨state₁, hstep, hentry, hcollision, hoccupied⟩ := remapId_ok hagrees
      fun hpolicy hmints => hfree hpolicy hmints id mem_cons_self
    have hrest : Undisturbed sha1 installationId objectIds kind ids state₁.occupied := by
      obtain heq | ⟨c, hc, heq⟩ := hoccupied
      · exact heq ▸ hagrees.tail
      · exact heq ▸ hagrees.step hapart hid hc
    obtain ⟨state₂, hrun, hentries, hcollisions⟩ := ih state₁ hids hapart.tail hrest
      fun hpolicy hmints id hmem => hfree hpolicy hmints id (mem_cons_of_mem _ hmem)
    refine ⟨state₂, ?_, ?_, ?_⟩
    · rw [remapIds, bind_ok]
      exact ⟨state₁, hstep, hrun⟩
    · rw [hentries, hentry, append_assoc, map_cons, singleton_append]
    · rw [hcollisions, hcollision, append_assoc, collisionsOf_cons]

def reportEntries (sha1 : List UInt8 → Fin 20 → UInt8) (bundle : PortableInvestigation)
    (request : PreflightRequest) (kinds : List PortableObjectKind) : List PreflightIdRemap :=
  kinds.flatMap fun kind => (sortedIds bundle kind).map
    (entryOf sha1 bundle.sourceInstallationId request.collisionPolicy request.objectIds kind)

def reportCollisions (sha1 : List UInt8 → Fin 20 → UInt8) (bundle : PortableInvestigation)
    (request : PreflightRequest) (kinds : List PortableObjectKind) : List PreflightWarning :=
  kinds.flatMap fun kind => collisionsOf sha1 bundle.sourceInstallationId request.collisionPolicy
    request.objectIds kind (sortedIds bundle kind)

variable {request : PreflightRequest}

theorem remapNamespaces_ok (state : RemapState) (hdistinct : RungsDistinct sha1 bundle)
    (hfree : request.collisionPolicy = .remap_deterministic →
      FreeRungs sha1 bundle request.objectIds) (kinds : List PortableObjectKind) :
    ∃ state', remapNamespaces sha1 bundle request state kinds = .ok state' ∧
      state'.idRemap = state.idRemap ++ reportEntries sha1 bundle request kinds ∧
      state'.referential = state.referential ++ reportCollisions sha1 bundle request kinds := by
  induction kinds generalizing state with
  | nil => exact ⟨state, rfl, (append_nil _).symm, (append_nil _).symm⟩
  | cons kind kinds ih =>
    have hstart : Undisturbed sha1 bundle.sourceInstallationId request.objectIds kind
        (sortedIds bundle kind)
        ((request.objectIds kind).filter fun id => isRfc4122Uuid id) :=
      fun id _ c _ => rung_mem_filter
    have hrungs : request.collisionPolicy = .remap_deterministic →
        portableMintsDestinationId kind = true → ∀ id ∈ sortedIds bundle kind,
          ∃ c < MAX_DETERMINISTIC_REMAP_ATTEMPTS,
            rungOf sha1 bundle.sourceInstallationId kind id c ∉ request.objectIds kind :=
      fun hpolicy hmints id hid => hfree hpolicy kind hmints id (mem_sortedIds.mp hid)
    obtain ⟨state₁, hids, hentries₁, hcollisions₁⟩ := remapIds_ok
      { state with occupied := (request.objectIds kind).filter fun id => isRfc4122Uuid id }
      (nodup_sortedIds kind) (hdistinct.apart kind) hstart hrungs
    obtain ⟨state₂, hrun, hentries, hcollisions⟩ := ih state₁
    refine ⟨state₂, ?_, ?_, ?_⟩
    · rw [remapNamespaces, bind_ok]
      exact ⟨state₁, hids, hrun⟩
    · rw [hentries, hentries₁, append_assoc]
      rfl
    · rw [hcollisions, hcollisions₁, append_assoc]
      rfl

theorem preflightIdRemap_ok (request : PreflightRequest)
    (hcatalog : assertCatalogIds request.objectIds = .ok ())
    (hdistinct : RungsDistinct sha1 bundle)
    (hfree : request.collisionPolicy = .remap_deterministic →
      FreeRungs sha1 bundle request.objectIds) :
    ∃ state, preflightIdRemap sha1 bundle request = .ok state ∧
      state.idRemap = reportEntries sha1 bundle request PORTABLE_OBJECT_KINDS ∧
      state.referential = reportCollisions sha1 bundle request PORTABLE_OBJECT_KINDS := by
  obtain ⟨state, hrun, hentries, hcollisions⟩ :=
    remapNamespaces_ok ⟨[], [], [], 0, 0, 0⟩ hdistinct hfree PORTABLE_OBJECT_KINDS
  refine ⟨state, ?_, ?_, ?_⟩
  · rw [preflightIdRemap, bind_ok]
    exact ⟨(), hcatalog, hrun⟩
  · rw [hentries]
    exact nil_append _
  · rw [hcollisions]
    exact nil_append _

/-! ## The report -/

theorem mem_reportEntries {entry : PreflightIdRemap} :
    entry ∈ reportEntries sha1 bundle request PORTABLE_OBJECT_KINDS ↔
      entry.sourceId ∈ portableNamespaceIds bundle entry.namespace_ ∧
        entry.destinationId = destinationOf sha1 bundle.sourceInstallationId
          request.collisionPolicy request.objectIds entry.namespace_ entry.sourceId := by
  simp only [reportEntries, mem_flatMap, mem_map, mem_sortedIds]
  constructor
  · rintro ⟨kind, -, id, hid, rfl⟩
    exact ⟨hid, rfl⟩
  · rintro ⟨hid, hdestination⟩
    refine ⟨entry.namespace_, mem_PORTABLE_OBJECT_KINDS _, entry.sourceId, hid, ?_⟩
    rw [entryOf, ← hdestination]

def keyOf (entry : PreflightIdRemap) : PortableObjectKind × JsString :=
  (entry.namespace_, entry.sourceId)

theorem reportEntries_keys (kinds : List PortableObjectKind) :
    (reportEntries sha1 bundle request kinds).map keyOf =
      kinds.flatMap fun kind => (sortedIds bundle kind).map (Prod.mk kind) := by
  rw [reportEntries, map_flatMap]
  refine flatMap_congr fun kind _ => ?_
  rw [map_map]
  rfl

theorem nodup_keys : ((reportEntries sha1 bundle request PORTABLE_OBJECT_KINDS).map keyOf).Nodup := by
  rw [reportEntries_keys, nodup_flatMap]
  refine ⟨fun kind _ => (nodup_sortedIds kind).map (Prod.mk_right_injective kind), ?_⟩
  refine List.Pairwise.imp (fun {kind kind'} hne => ?_)
    (show PORTABLE_OBJECT_KINDS.Nodup by decide)
  intro key hkey hkey'
  obtain ⟨id, -, rfl⟩ := mem_map.mp hkey
  obtain ⟨id', -, heq⟩ := mem_map.mp hkey'
  exact hne (Prod.mk.inj heq).1.symm

theorem content_of_mode (h : portableIdMintingMode kind = .content_addressed) : kind = .content := by
  cases kind <;> first | rfl | cases h

theorem destinationOf_rung (hkind : kind ≠ .content)
    (hfree : policy = .remap_deterministic → portableMintsDestinationId kind = true →
      ∃ c < MAX_DETERMINISTIC_REMAP_ATTEMPTS,
        rungOf sha1 installationId kind id c ∉ objectIds kind) :
    ∃ c < MAX_DETERMINISTIC_REMAP_ATTEMPTS,
      destinationOf sha1 installationId policy objectIds kind id =
        rungOf sha1 installationId kind id c := by
  unfold destinationOf
  cases hmode : portableIdMintingMode kind with
  | content_addressed => exact absurd (content_of_mode hmode) hkind
  | destination_sequenced => exact ⟨0, by decide, rfl⟩
  | minted =>
    cases policy with
    | fail => exact ⟨0, by decide, rfl⟩
    | remap_deterministic =>
      obtain ⟨c, hchosen⟩ := Option.isSome_iff_exists.mp
        (firstFree_isSome.mpr (hfree rfl (decide_eq_true hmode)))
      refine ⟨c, (firstFree_eq_some.mp hchosen).1, ?_⟩
      simp only [lowestFreeRung, hchosen, Option.map_some, Option.getD_some]

theorem lowestFreeRung_destination (hmints : portableMintsDestinationId kind = true)
    (hfree : ∃ c < MAX_DETERMINISTIC_REMAP_ATTEMPTS,
      rungOf sha1 installationId kind id c ∉ objectIds kind) :
    lowestFreeRung sha1 installationId objectIds kind id =
      some (destinationOf sha1 installationId .remap_deterministic objectIds kind id) := by
  obtain ⟨c, hchosen⟩ := Option.isSome_iff_exists.mp (firstFree_isSome.mpr hfree)
  simp only [destinationOf, minted_mode hmints, lowestFreeRung, hchosen, Option.map_some,
    Option.getD_some]

theorem lowestFreeRung_notMem {destinationId : JsString}
    (h : lowestFreeRung sha1 installationId objectIds kind id = some destinationId) :
    destinationId ∉ objectIds kind := by
  obtain ⟨c, hchosen, rfl⟩ := Option.map_eq_some_iff.mp h
  exact (firstFree_eq_some.mp hchosen).2.1

theorem collisionPath_inj (h : collisionPath kind id = collisionPath kind' id') :
    kind = kind' ∧ id = id' := by
  obtain ⟨hkind, hid⟩ := cons_append_inj (colon_notMem_kind kind) (colon_notMem_kind kind') h
  exact ⟨kind_text_inj hkind, hid⟩

theorem idCollision_mem_reportCollisions :
    idCollision kind id ∈ reportCollisions sha1 bundle request PORTABLE_OBJECT_KINDS ↔
      id ∈ portableNamespaceIds bundle kind ∧ Conflicts sha1 bundle.sourceInstallationId
        request.collisionPolicy request.objectIds kind id := by
  simp only [reportCollisions, collisionsOf, mem_flatMap, mem_map, mem_filter,
    mem_sortedIds, decide_eq_true_eq]
  constructor
  · rintro ⟨kind', -, id', ⟨hid, hconflict⟩, heq⟩
    obtain ⟨rfl, rfl⟩ := collisionPath_inj (congrArg PreflightWarning.path heq)
    exact ⟨hid, hconflict⟩
  · rintro ⟨hid, hconflict⟩
    exact ⟨kind, mem_PORTABLE_OBJECT_KINDS kind, id, ⟨hid, hconflict⟩, rfl⟩

/-- What is to be said of the ids of a report. -/
structure IdRemapReport (sha1 : List UInt8 → Fin 20 → UInt8) (bundle : PortableInvestigation)
    (request : PreflightRequest) (state : RemapState) : Prop where
  once : (state.idRemap.map keyOf).Nodup
  complete : ∀ kind id, (kind, id) ∈ state.idRemap.map keyOf ↔
    id ∈ portableNamespaceIds bundle kind
  content : ∀ entry ∈ state.idRemap, entry.namespace_ = .content →
    entry.destinationId = entry.sourceId
  lowest : request.collisionPolicy = .remap_deterministic → ∀ entry ∈ state.idRemap,
    portableMintsDestinationId entry.namespace_ = true →
      lowestFreeRung sha1 bundle.sourceInstallationId request.objectIds entry.namespace_
        entry.sourceId = some entry.destinationId ∧
      entry.destinationId ∉ request.objectIds entry.namespace_
  distinct : request.collisionPolicy = .remap_deterministic → ∀ entry ∈ state.idRemap,
    ∀ entry' ∈ state.idRemap, portableMintsDestinationId entry.namespace_ = true →
      entry.namespace_ = entry'.namespace_ → entry.destinationId = entry'.destinationId →
        entry = entry'
  conflicts : request.collisionPolicy = .fail → ∀ kind,
    portableMintsDestinationId kind = true → ∀ id ∈ portableNamespaceIds bundle kind,
      (idCollision kind id ∈ state.referential ↔
        rungOf sha1 bundle.sourceInstallationId kind id 0 ∈ request.objectIds kind)

theorem FreeRungs.rung (h : policy = .remap_deterministic → FreeRungs sha1 bundle objectIds)
    (hid : id ∈ portableNamespaceIds bundle kind) :
    policy = .remap_deterministic → portableMintsDestinationId kind = true →
      ∃ c < MAX_DETERMINISTIC_REMAP_ATTEMPTS,
        rungOf sha1 bundle.sourceInstallationId kind id c ∉ objectIds kind :=
  fun hpolicy hmints => h hpolicy kind hmints id hid

theorem ne_content_of_mints (h : portableMintsDestinationId kind = true) : kind ≠ .content := by
  rintro rfl
  exact absurd h (by decide)

theorem destinationOf_inj (hdistinct : RungsDistinct sha1 bundle)
    (hfree : policy = .remap_deterministic → FreeRungs sha1 bundle objectIds)
    (hkind : kind ≠ .content) (hkind' : kind' ≠ .content)
    (hid : id ∈ portableNamespaceIds bundle kind) (hid' : id' ∈ portableNamespaceIds bundle kind')
    {objectIds' : CatalogIds}
    (hfree' : policy = .remap_deterministic → FreeRungs sha1 bundle objectIds')
    (heq : destinationOf sha1 bundle.sourceInstallationId policy objectIds kind id =
      destinationOf sha1 bundle.sourceInstallationId policy objectIds' kind' id') :
    kind = kind' ∧ id = id' := by
  obtain ⟨c, hc, hrung⟩ := destinationOf_rung hkind (FreeRungs.rung hfree hid)
  obtain ⟨c', hc', hrung'⟩ := destinationOf_rung hkind' (FreeRungs.rung hfree' hid')
  rw [hrung, hrung'] at heq
  obtain ⟨hkinds, hids, -⟩ := hdistinct.inj hid hid' hc hc' heq
  exact ⟨hkinds, hids⟩

theorem idRemapReport (hdistinct : RungsDistinct sha1 bundle)
    (hfree : request.collisionPolicy = .remap_deterministic →
      FreeRungs sha1 bundle request.objectIds)
    (hentries : state.idRemap = reportEntries sha1 bundle request PORTABLE_OBJECT_KINDS)
    (hcollisions : state.referential = reportCollisions sha1 bundle request PORTABLE_OBJECT_KINDS) :
    IdRemapReport sha1 bundle request state where
  once := hentries ▸ nodup_keys
  complete kind id := by
    rw [hentries, reportEntries_keys, mem_flatMap]
    constructor
    · rintro ⟨kind', -, hkey⟩
      obtain ⟨id', hid', heq⟩ := mem_map.mp hkey
      obtain ⟨rfl, rfl⟩ := Prod.mk.inj heq
      exact mem_sortedIds.mp hid'
    · exact fun hid => ⟨kind, mem_PORTABLE_OBJECT_KINDS kind,
        mem_map_of_mem (mem_sortedIds.mpr hid)⟩
  content entry hentry hkind := by
    rw [hentries, mem_reportEntries] at hentry
    rw [hentry.2, hkind]
    rfl
  lowest hpolicy entry hentry hmints := by
    rw [hentries, mem_reportEntries, hpolicy] at hentry
    have hrung := lowestFreeRung_destination hmints
      (hfree hpolicy _ hmints _ hentry.1)
    rw [← hentry.2] at hrung
    exact ⟨hrung, lowestFreeRung_notMem hrung⟩
  distinct hpolicy entry hentry entry' hentry' hmints hkind hdestination := by
    rw [hentries, mem_reportEntries] at hentry hentry'
    have hcontent := ne_content_of_mints hmints
    have hsame := hdestination
    rw [hentry.2, hentry'.2] at hsame
    obtain ⟨-, hid⟩ := destinationOf_inj hdistinct hfree hcontent (hkind ▸ hcontent) hentry.1
      hentry'.1 hfree hsame
    obtain ⟨_, _, _⟩ := entry
    obtain ⟨_, _, _⟩ := entry'
    simp only at hkind hid hdestination
    rw [hkind, hid, hdestination]
  conflicts hpolicy kind hmints id hid := by
    rw [hcollisions, idCollision_mem_reportCollisions]
    exact ⟨fun h => h.2.2.2, fun h => ⟨hid, hmints, hpolicy, h⟩⟩

/-! ## A second import -/

/-- The catalog after an import of what is reported. -/
def extendedCatalog (request : PreflightRequest) (state : RemapState) : CatalogIds := fun kind =>
  request.objectIds kind ++
    (state.idRemap.filter fun entry => entry.namespace_ = kind).map (·.destinationId)

def repeated (request : PreflightRequest) (state : RemapState) : PreflightRequest :=
  { request with objectIds := extendedCatalog request state }

theorem mem_extendedCatalog : id ∈ extendedCatalog request state kind ↔
    id ∈ request.objectIds kind ∨
      ∃ entry ∈ state.idRemap, entry.namespace_ = kind ∧ entry.destinationId = id := by
  simp [extendedCatalog, and_assoc]

theorem assertCatalogIds_ok : assertCatalogIds objectIds = .ok () ↔
    ∀ kind, ∀ id ∈ objectIds kind, SafeIdentifier id ∧ FORBIDDEN_VALUE_RE.test id = false := by
  simp only [assertCatalogIds, ensureAll_ok, bind_ok, requireSafeIdentifier_ok, ensure_ok,
    exists_const]
  exact ⟨fun h kind => h kind (mem_PORTABLE_OBJECT_KINDS kind), fun h kind _ => h kind⟩

theorem catalogId_of_idUnits {s : JsString} (hne : s ≠ []) (h : ∀ u ∈ s, isIdUnit u = true) :
    SafeIdentifier s ∧ FORBIDDEN_VALUE_RE.test s = false :=
  ⟨safeIdentifier_of_idUnits hne h, forbidden_of_idUnits h⟩

theorem idUnits_rung (c : Nat) : (rungOf sha1 installationId kind id c).length = 36 ∧
    ∀ u ∈ rungOf sha1 installationId kind id c, isIdUnit u = true :=
  idUnits_of_uuid (isRfc4122Uuid_uuidV5 sha1 _ _)

theorem ne_nil_of_length {s : JsString} {n : Nat} (h : s.length = n + 1) : s ≠ [] := by
  rintro rfl
  cases h

/-- The catalog with the ids of a report is a catalog. -/
theorem extendedCatalog_ok
    (hdigests : ∀ row ∈ bundle.contentObjects, isSha256Hex row.digest = true)
    (hcatalog : assertCatalogIds request.objectIds = .ok ())
    (hfree : request.collisionPolicy = .remap_deterministic →
      FreeRungs sha1 bundle request.objectIds)
    (hentries : state.idRemap = reportEntries sha1 bundle request PORTABLE_OBJECT_KINDS) :
    assertCatalogIds (extendedCatalog request state) = .ok () := by
  rw [assertCatalogIds_ok] at hcatalog ⊢
  intro kind id hid
  obtain hold | ⟨entry, hentry, rfl, rfl⟩ := mem_extendedCatalog.mp hid
  · exact hcatalog kind id hold
  rw [hentries, mem_reportEntries] at hentry
  obtain ⟨hid, hdestination⟩ := hentry
  by_cases hkind : entry.namespace_ = .content
  · rw [hkind, portableNamespaceIds, mem_dedup] at hid
    obtain ⟨row, hrow, hdigest⟩ := mem_map.mp hid
    have hhex := hdigests row hrow
    rw [isSha256Hex, Bool.and_eq_true, decide_eq_true_eq, all_eq_true] at hhex
    rw [hdestination, hkind, show destinationOf sha1 _ _ request.objectIds .content entry.sourceId =
      entry.sourceId from rfl, ← hdigest]
    refine catalogId_of_idUnits (ne_nil_of_length hhex.1) fun u hu => ?_
    rw [isIdUnit, hhex.2 u hu, Bool.true_or]
  · obtain ⟨c, -, hrung⟩ := destinationOf_rung hkind (FreeRungs.rung hfree hid)
    rw [hdestination, hrung]
    obtain ⟨hlength, hunits⟩ := @idUnits_rung sha1 bundle.sourceInstallationId entry.namespace_
      entry.sourceId c
    exact catalogId_of_idUnits (ne_nil_of_length hlength) hunits

/-- What was given out is not given out again. -/
theorem repeated_disjoint
    (hdigests : ∀ row ∈ bundle.contentObjects, isSha256Hex row.digest = true)
    (hdistinct : RungsDistinct sha1 bundle)
    (hpolicy : request.collisionPolicy = .remap_deterministic)
    (hfree : FreeRungs sha1 bundle request.objectIds)
    (hfree' : FreeRungs sha1 bundle (extendedCatalog request state))
    (hentries : state.idRemap = reportEntries sha1 bundle request PORTABLE_OBJECT_KINDS)
    {entry entry' : PreflightIdRemap} (hentry : entry ∈ state.idRemap)
    (hentry' : entry' ∈ reportEntries sha1 bundle (repeated request state) PORTABLE_OBJECT_KINDS)
    (hmints : portableMintsDestinationId entry'.namespace_ = true) :
    entry'.destinationId ≠ entry.destinationId := by
  intro hsame
  have hnew := lowestFreeRung_destination hmints (hfree' _ hmints _ (mem_reportEntries.mp hentry').1)
  obtain ⟨hid', hdestination'⟩ := mem_reportEntries.mp hentry'
  have hmember := hentry
  rw [hentries, mem_reportEntries] at hmember
  obtain ⟨hid, hdestination⟩ := hmember
  have hcontent' := ne_content_of_mints hmints
  by_cases hkind : entry.namespace_ = .content
  · obtain ⟨c, -, hrung⟩ := destinationOf_rung hcontent' (FreeRungs.rung (fun _ => hfree') hid')
    rw [hkind, portableNamespaceIds, mem_dedup] at hid
    obtain ⟨row, hrow, hdigest⟩ := mem_map.mp hid
    have hhex := hdigests row hrow
    rw [isSha256Hex, Bool.and_eq_true, decide_eq_true_eq, hdigest] at hhex
    rw [hkind] at hdestination
    have hlength : entry'.destinationId.length = 64 := by
      rw [hsame, hdestination]
      exact hhex.1
    rw [hdestination', show (repeated request state).objectIds = extendedCatalog request state
      from rfl, hrung, (idUnits_rung c).1] at hlength
    omega
  · have hkinds : entry'.namespace_ = entry.namespace_ := by
      have hdestinations := hsame
      rw [hdestination, hdestination'] at hdestinations
      exact (destinationOf_inj hdistinct (fun _ => hfree') hcontent' hkind hid' hid
        (fun _ => hfree) hdestinations).1
    have hold : entry.destinationId ∈ extendedCatalog request state entry'.namespace_ :=
      mem_extendedCatalog.mpr (.inr ⟨entry, hentry, hkinds.symm, rfl⟩)
    refine lowestFreeRung_notMem hnew ?_
    rw [← hsame, hdestination'] at hold
    rw [show (repeated request state).collisionPolicy = .remap_deterministic from hpolicy] at hold
    exact hold

variable {sha256 : List UInt8 → JsString} {inline : Bool} {b : PortableInvestigation}

/-- A preflight of an accepted bundle, and the preflight after an import of what it reports. -/
theorem preflightIdRemap_report
    (haccepted : parsePortableInvestigation sha256 inline bundle = .ok b)
    (hcatalog : assertCatalogIds request.objectIds = .ok ()) (hdistinct : RungsDistinct sha1 bundle)
    (hfree : request.collisionPolicy = .remap_deterministic →
      FreeRungs sha1 bundle request.objectIds) :
    ∃ state, preflightIdRemap sha1 b request = .ok state ∧ IdRemapReport sha1 b request state ∧
      (request.collisionPolicy = .remap_deterministic →
        FreeRungs sha1 b (extendedCatalog request state) →
        ∃ state', preflightIdRemap sha1 b (repeated request state) = .ok state' ∧
          IdRemapReport sha1 b (repeated request state) state' ∧
          ∀ entry ∈ state.idRemap, ∀ entry' ∈ state'.idRemap,
            portableMintsDestinationId entry'.namespace_ = true →
              entry'.destinationId ≠ entry.destinationId) ∧
      (request.collisionPolicy = .fail →
        ∃ state', preflightIdRemap sha1 b (repeated request state) = .ok state' ∧
          ∀ kind, portableMintsDestinationId kind = true → ∀ id ∈ portableNamespaceIds b kind,
            idCollision kind id ∈ state'.referential) := by
  have hdigests := parsePortableInvestigation_digests haccepted
  obtain rfl := parsePortableInvestigation_returns haccepted
  obtain ⟨state, hrun, hentries, hcollisions⟩ :=
    preflightIdRemap_ok request hcatalog hdistinct hfree
  have hagain := extendedCatalog_ok hdigests hcatalog hfree hentries
  refine ⟨state, hrun, idRemapReport hdistinct hfree hentries hcollisions, fun hpolicy hfree' => ?_,
    fun hpolicy => ?_⟩
  · obtain ⟨state', hrun', hentries', hcollisions'⟩ := preflightIdRemap_ok
      (repeated request state) hagain hdistinct fun _ => hfree'
    refine ⟨state', hrun', idRemapReport hdistinct (fun _ => hfree') hentries' hcollisions', ?_⟩
    intro entry hentry entry' hentry' hmints
    exact repeated_disjoint hdigests hdistinct hpolicy (hfree hpolicy) hfree' hentries hentry
      (hentries' ▸ hentry') hmints
  · have hfail : (repeated request state).collisionPolicy = .fail := hpolicy
    obtain ⟨state', hrun', -, hcollisions'⟩ := preflightIdRemap_ok
      (repeated request state) hagain hdistinct
      fun h => CollisionPolicy.noConfusion (hfail.symm.trans h)
    refine ⟨state', hrun', fun kind hmints id hid => ?_⟩
    rw [hcollisions', idCollision_mem_reportCollisions]
    refine ⟨hid, hmints, hfail, mem_extendedCatalog.mpr (.inr ⟨entryOf sha1
      b.sourceInstallationId request.collisionPolicy request.objectIds kind id, ?_, rfl, ?_⟩)⟩
    · rw [hentries, mem_reportEntries]
      exact ⟨hid, rfl⟩
    · rw [hpolicy, entryOf_fail hmints]

/-! ## A preflight -/

def bareBundle : PortableInvestigation where
  sourceInstallationId := JsString.ofString "inst-a"
  investigation := JsString.ofString "inv"
  actors := []
  contributions := []
  evidence := []
  intakeBatches := []
  contentObjects := []
  sources := []
  importedAiRuns := []
  snapshots := []
  triageJobs := []
  experiments := []
  helpfulnessObservations := []
  decisions := []
  gold := []
  alignments := []
  discussions := []
  timeline := []
  auditRefs := []
  attachments := []

/-- The last three bytes, which tell the counters of one id apart. -/
def lastBytes (bytes : List UInt8) (i : Fin 20) : UInt8 :=
  if i.val < 3 then bytes.reverse.getD i.val 0 else 0

def bareRung (c : Nat) : JsString :=
  rungOf lastBytes bareBundle.sourceInstallationId .investigation bareBundle.investigation c

/-- The lowest rung is taken at the destination. -/
def takenRequest : PreflightRequest where
  collisionPolicy := .remap_deterministic
  objectIds
    | .investigation => [bareRung 0]
    | _ => []

theorem bareBundle_ids (hid : id ∈ portableNamespaceIds bareBundle kind) :
    kind = .investigation ∧ id = bareBundle.investigation := by
  cases kind with
  | investigation => exact ⟨rfl, mem_singleton.mp hid⟩
  | _ => exact absurd hid not_mem_nil

/-- The counter of a rung, from the second hexadecimal digits of its first three bytes. -/
def bareCounter (rung : JsString) : Nat :=
  let digit := fun i => (rung.getD i 0).toNat - 48
  if rung.getD 3 0 = 97 then digit 1
  else if rung.getD 5 0 = 97 then digit 3 * 10 + digit 1
  else digit 5 * 100 + digit 3 * 10 + digit 1

theorem bareRungs_distinct : RungsDistinct lastBytes bareBundle := by
  have hcounter : ∀ c < 256, bareCounter (bareRung c) = c := by decide +kernel
  rintro _ ⟨kind, id, hid, c, hc, rfl⟩ _ ⟨kind', id', hid', c', hc', rfl⟩ heq
  obtain ⟨rfl, rfl⟩ := bareBundle_ids hid
  obtain ⟨rfl, rfl⟩ := bareBundle_ids hid'
  have hsame : bareRung c = bareRung c' := heq
  rw [← hcounter c hc, ← hcounter c' hc', hsame]

theorem preflightIdRemap_bare :
    ∃ state, preflightIdRemap lastBytes bareBundle takenRequest = .ok state ∧
      IdRemapReport lastBytes bareBundle takenRequest state := by
  have hparse : (parsePortableInvestigation (fun _ => []) true bareBundle).isOk = true := by
    decide +kernel
  cases haccepted : parsePortableInvestigation (fun _ => []) true bareBundle with
  | error message =>
    rw [haccepted] at hparse
    cases hparse
  | ok b =>
    rw [parsePortableInvestigation_returns haccepted] at haccepted
    have hcatalog : assertCatalogIds takenRequest.objectIds = .ok () := by
      refine assertCatalogIds_ok.mpr fun kind id hid => ?_
      cases kind with
      | investigation =>
        obtain rfl := mem_singleton.mp hid
        exact catalogId_of_idUnits (ne_nil_of_length (idUnits_rung 0).1) (idUnits_rung 0).2
      | _ => exact absurd hid not_mem_nil
    obtain ⟨state, hrun, hreport, -⟩ := preflightIdRemap_report haccepted hcatalog
      bareRungs_distinct fun _ kind _ id hid => by
        obtain ⟨rfl, rfl⟩ := bareBundle_ids hid
        exact ⟨1, by decide, show bareRung 1 ∉ [bareRung 0] by decide +kernel⟩
    exact ⟨state, hrun, hreport⟩

end ContextDesk
