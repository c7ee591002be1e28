import ContextDesk.Lib.ByteIndex
import ContextDesk.Lib.Keyset
import ContextDesk.Lib.Wire

/-!
# The host evidence ledger

`HostEvidenceLedger.digest` is the hash of the evidence rows in the order of their ids: for each
row a byte for its role, six fields with a zero byte behind each, and three revisions of eight
bytes. `HostEvidenceLedger.new` accepts a binding whose digest is that of its rows. SHA-256 and
its hexadecimal text are the parameter `sha256Hex`.
-/

namespace ContextDesk

open Lib Lib.Text Lib.Utf8 List

inductive EvidenceRole where
  | cause
  | supporting
  | symptom
  | neutral
  deriving DecidableEq

structure LogSnapshotRevisionV1 where
  eventRevision : UInt64
  templateAnalysisRevision : UInt64
  suppressionRevision : UInt64
  deriving DecidableEq

structure HostEvidenceEntry where
  evidenceId : String
  candidateId : String
  sourceLabel : String
  locator : String
  corpusId : String
  revision : LogSnapshotRevisionV1
  role : EvidenceRole
  content : String
  deriving DecidableEq

structure AnswerBindingV1 where
  sessionId : String
  turnId : String
  corpusId : String
  revision : LogSnapshotRevisionV1
  ledgerDigest : String
  deriving DecidableEq

inductive ValidationError where
  | parse
  | schema
  | duplicateId
  | unknownEvidence
  | wrongScope
  | wrongRevision
  | emptyEvidence
  | rootRole
  | roleMismatch
  | roleCoverage
  | emptyLedger
  | invalidBinding
  | digestMismatch
  deriving DecidableEq

def EvidenceRole.byte : EvidenceRole → UInt8
  | .cause => 1
  | .supporting => 2
  | .symptom => 3
  | .neutral => 4

def HostEvidenceEntry.parts (e : HostEvidenceEntry) : List String :=
  [e.evidenceId, e.candidateId, e.sourceLabel, e.locator, e.corpusId, e.content]

def LogSnapshotRevisionV1.bytes (r : LogSnapshotRevisionV1) : List UInt8 :=
  leBytes 8 r.eventRevision.toNat ++ (leBytes 8 r.templateAnalysisRevision.toNat ++
    leBytes 8 r.suppressionRevision.toNat)

def HostEvidenceEntry.bytes (e : HostEvidenceEntry) : List UInt8 :=
  e.role.byte :: ((e.parts.flatMap fun part => terminated 0 (textBytes part)) ++ e.revision.bytes)

/-- `sort_by` the evidence id. -/
def byEvidenceId (entries : List HostEvidenceEntry) : List HostEvidenceEntry :=
  entries.insertionSort fun a b => a.evidenceId ≤ b.evidenceId

structure HostEvidenceLedger where
  binding : AnswerBindingV1
  /-- The values of the map in the order of their keys. -/
  entries : List HostEvidenceEntry
  deriving DecidableEq

namespace HostEvidenceLedger

def digest (sha256Hex : List UInt8 → String) (entries : List HostEvidenceEntry) : String :=
  sha256Hex ((byEvidenceId entries).flatMap HostEvidenceEntry.bytes)

/-- The rows one after the other into a map by their id. -/
def insertAll : List HostEvidenceEntry → List HostEvidenceEntry →
    Except ValidationError (List HostEvidenceEntry)
  | entries, [] => .ok entries
  | entries, e :: evidence =>
    if (trim e.evidenceId.toList).isEmpty then .error .duplicateId
    else if entries.any fun other => other.evidenceId = e.evidenceId then .error .duplicateId
    else insertAll (entries.orderedInsert (fun a b => a.evidenceId ≤ b.evidenceId) e) evidence

/-- The checks of every row of the map, after the digest. -/
def checkRows (binding : AnswerBindingV1) : List HostEvidenceEntry → Except ValidationError Unit
  | [] => .ok ()
  | e :: entries =>
    if (trim e.candidateId.toList).isEmpty then .error .wrongScope
    else if e.corpusId ≠ binding.corpusId ∨ e.revision ≠ binding.revision then
      .error .wrongRevision
    else checkRows binding entries

def new (sha256Hex : List UInt8 → String) (binding : AnswerBindingV1)
    (evidence : List HostEvidenceEntry) : Except ValidationError HostEvidenceLedger :=
  if (trim binding.sessionId.toList).isEmpty || (trim binding.turnId.toList).isEmpty ||
      (trim binding.corpusId.toList).isEmpty || (trim binding.ledgerDigest.toList).isEmpty then
    .error .invalidBinding
  else if evidence.isEmpty then .error .emptyLedger
  else
    match insertAll [] evidence with
    | .error e => .error e
    | .ok entries =>
      if binding.ledgerDigest ≠ digest sha256Hex entries then .error .digestMismatch
      else (checkRows binding entries).map fun _ => { binding := binding, entries := entries }

end HostEvidenceLedger

/-! ## The order of the rows does not matter -/

def UniqueIds (entries : List HostEvidenceEntry) : Prop :=
  (entries.map HostEvidenceEntry.evidenceId).Nodup

instance uniqueIdsDecidable (entries : List HostEvidenceEntry) : Decidable (UniqueIds entries) :=
  inferInstanceAs (Decidable (entries.map HostEvidenceEntry.evidenceId).Nodup)

variable {entries : List HostEvidenceEntry}

theorem byEvidenceId_ascending (h : UniqueIds entries) :
    Keyset.Ascending HostEvidenceEntry.evidenceId (byEvidenceId entries) :=
  Keyset.ascending_insertionSort (fun _ _ => Iff.rfl) h

theorem byEvidenceId_perm (entries : List HostEvidenceEntry) :
    (byEvidenceId entries).Perm entries := perm_insertionSort _ entries

theorem byEvidenceId_of_perm {l l' : List HostEvidenceEntry} (h : UniqueIds l) (hp : l.Perm l') :
    byEvidenceId l = byEvidenceId l' := by
  have h' : UniqueIds l' := (hp.map _).nodup_iff.mp h
  refine (byEvidenceId_ascending h).eq_of_mem (byEvidenceId_ascending h') fun e => ?_
  rw [(byEvidenceId_perm l).mem_iff, (byEvidenceId_perm l').mem_iff, hp.mem_iff]

/-! ## Reading the rows back -/

/-- A field without the character that the code puts behind it. -/
def NulFree (s : String) : Prop := Char.ofNat 0 ∉ s.toList

theorem textBytes_eq (s : String) : textBytes s = bytes s.toList := by
  obtain ⟨l, rfl⟩ : ∃ l, s = String.ofList l := ⟨s.toList, by simp⟩
  unfold textBytes bytes
  rw [String.toList_ofList, String.toByteArray_ofList]
  simp [List.utf8Encode]

theorem zero_notMem_textBytes {s : String} (h : NulFree s) : (0 : UInt8) ∉ textBytes s := by
  rw [textBytes_eq]
  intro hmem
  obtain ⟨c, hc, hb⟩ := mem_flatMap.mp hmem
  by_cases hascii : ByteIndex.ascii c = true
  · obtain ⟨b, he, hp⟩ := ByteIndex.encode_ascii hascii
    rw [he, mem_singleton] at hb
    have hnul := hp (· = Char.ofNat 0)
    rw [← hb] at hnul
    have hc0 : c = Char.ofNat 0 := of_decide_eq_true (hnul.symm.trans (by decide))
    exact h (hc0 ▸ hc)
  · have hwide := ByteIndex.encode_wide (by simpa using hascii) 0 hb fun _ => true
    exact absurd hwide (by decide)

theorem field_delimited : Delimited NulFree fun s => terminated 0 (textBytes s) :=
  (Delimited.terminated 0).comap (fun _ => zero_notMem_textBytes)
    fun _ _ _ _ h => textBytes_inj h

theorem revision_delimited : Delimited (fun _ => True) LogSnapshotRevisionV1.bytes := by
  have hword : Delimited (fun _ : UInt64 => True) fun n => leBytes 8 n.toNat :=
    (leBytes_delimited 8).comap (fun n _ => n.toNat_lt) fun _ _ _ _ h => UInt64.toNat_inj.mp h
  refine (hword.pair (hword.pair hword)).comap
    (f := fun r : LogSnapshotRevisionV1 =>
      (r.eventRevision, r.templateAnalysisRevision, r.suppressionRevision))
    (fun _ _ => ⟨trivial, trivial, trivial⟩) ?_
  rintro ⟨a, b, c⟩ ⟨a', b', c'⟩ - - h
  simp only [Prod.mk.injEq] at h
  obtain ⟨rfl, rfl, rfl⟩ := h
  rfl

/-- The text fields of a row have no zero character. -/
def HostEvidenceEntry.NulFree (e : HostEvidenceEntry) : Prop :=
  ∀ part ∈ e.parts, ContextDesk.NulFree part

theorem EvidenceRole.byte_inj {r r' : EvidenceRole} (h : r.byte = r'.byte) : r = r' := by
  cases r <;> cases r' <;> first | rfl | exact absurd h (by decide)

theorem entry_delimited : Delimited HostEvidenceEntry.NulFree HostEvidenceEntry.bytes := by
  intro e e' x y he he' heq
  unfold HostEvidenceEntry.bytes at heq
  rw [cons_append, cons_append] at heq
  obtain ⟨hrole, hrest⟩ := cons.inj heq
  rw [append_assoc, append_assoc] at hrest
  obtain ⟨hparts, hrest⟩ :=
    field_delimited.flatMap (show e.parts.length = e'.parts.length from rfl) he he' hrest
  obtain ⟨hrevision, hxy⟩ := revision_delimited trivial trivial hrest
  refine ⟨?_, hxy⟩
  obtain ⟨e1, e2, e3, e4, e5, e6, e7, e8⟩ := e
  obtain ⟨f1, f2, f3, f4, f5, f6, f7, f8⟩ := e'
  simp only [HostEvidenceEntry.parts, cons.injEq, and_true] at hparts
  obtain ⟨rfl, rfl, rfl, rfl, rfl, rfl⟩ := hparts
  have hr : e7 = f7 := EvidenceRole.byte_inj hrole
  have hv : e6 = f6 := hrevision
  rw [hr, hv]

variable {sha256Hex : List UInt8 → String}

theorem digest_inj (hsha : Function.Injective sha256Hex) {l l' : List HostEvidenceEntry}
    (hl : ∀ e ∈ l, e.NulFree) (hl' : ∀ e ∈ l', e.NulFree)
    (h : HostEvidenceLedger.digest sha256Hex l = HostEvidenceLedger.digest sha256Hex l') :
    l.Perm l' := by
  have hrows : byEvidenceId l = byEvidenceId l' := by
    refine entry_delimited.concat_inj (fun _ => by simp [HostEvidenceEntry.bytes]) ?_ ?_ (hsha h)
    · exact fun e he => hl e ((byEvidenceId_perm l).mem_iff.mp he)
    · exact fun e he => hl' e ((byEvidenceId_perm l').mem_iff.mp he)
  have hp := byEvidenceId_perm l
  rw [hrows] at hp
  exact hp.symm.trans (byEvidenceId_perm l')

/-! ## What `new` accepts -/

variable {evidence : List HostEvidenceEntry}

theorem insertAll_ok {entries' : List HostEvidenceEntry}
    (h : HostEvidenceLedger.insertAll entries evidence = .ok entries') (hu : UniqueIds entries) :
    entries'.Perm (entries ++ evidence) ∧ UniqueIds entries' := by
  induction evidence generalizing entries with
  | nil =>
    cases h
    exact ⟨by rw [append_nil], hu⟩
  | cons e evidence ih =>
    unfold HostEvidenceLedger.insertAll at h
    split at h
    · cases h
    · split at h
      · cases h
      · rename_i hnew
        have hperm := perm_orderedInsert
          (fun a b : HostEvidenceEntry => a.evidenceId ≤ b.evidenceId) e entries
        have hu' : UniqueIds (entries.orderedInsert
            (fun a b => a.evidenceId ≤ b.evidenceId) e) := by
          refine (hperm.map HostEvidenceEntry.evidenceId).nodup_iff.mpr ?_
          rw [map_cons, nodup_cons]
          refine ⟨fun hmem => hnew ?_, hu⟩
          obtain ⟨other, ho, hid⟩ := mem_map.mp hmem
          exact any_eq_true.mpr ⟨other, ho, decide_eq_true hid⟩
        obtain ⟨hp, hunique⟩ := ih h hu'
        refine ⟨hp.trans ?_, hunique⟩
        exact (hperm.append_right evidence).trans perm_middle.symm

variable {binding : AnswerBindingV1} {ledger : HostEvidenceLedger}

theorem new_cases (h : HostEvidenceLedger.new sha256Hex binding evidence = .ok ledger) :
    evidence ≠ [] ∧ HostEvidenceLedger.insertAll [] evidence = .ok ledger.entries ∧
      binding.ledgerDigest = HostEvidenceLedger.digest sha256Hex ledger.entries ∧
      ledger.binding = binding := by
  unfold HostEvidenceLedger.new at h
  split at h
  · cases h
  · split at h
    · cases h
    · rename_i hne
      split at h
      · cases h
      · rename_i entries hi
        split at h
        · cases h
        · rename_i hd
          unfold Except.map at h
          split at h
          · cases h
          · cases h
            exact ⟨fun hnil => hne (by rw [hnil]; rfl), hi, not_not.mp hd, rfl⟩

theorem new_entries (h : HostEvidenceLedger.new sha256Hex binding evidence = .ok ledger) :
    ledger.entries.Perm evidence ∧ UniqueIds ledger.entries ∧ ledger.entries ≠ [] := by
  obtain ⟨hne, hi, -, -⟩ := new_cases h
  obtain ⟨hp, hu⟩ := insertAll_ok hi nodup_nil
  rw [nil_append] at hp
  exact ⟨hp, hu, fun hnil => hne (hnil ▸ hp).nil_eq.symm⟩

theorem new_ok (h : HostEvidenceLedger.new sha256Hex binding evidence = .ok ledger) :
    UniqueIds evidence ∧
      binding.ledgerDigest = HostEvidenceLedger.digest sha256Hex evidence := by
  obtain ⟨hp, hu, -⟩ := new_entries h
  obtain ⟨-, -, hd, -⟩ := new_cases h
  refine ⟨(hp.map _).nodup_iff.mp hu, ?_⟩
  rw [hd]
  unfold HostEvidenceLedger.digest
  rw [byEvidenceId_of_perm hu hp]

theorem insertAll_nonblank {entries' : List HostEvidenceEntry}
    (h : HostEvidenceLedger.insertAll entries evidence = .ok entries') :
    ∀ e ∈ evidence, e.evidenceId ≠ "" := by
  induction evidence generalizing entries with
  | nil => simp
  | cons e evidence ih =>
    unfold HostEvidenceLedger.insertAll at h
    split at h
    · cases h
    · rename_i hblank
      split at h
      · cases h
      · refine forall_mem_cons.mpr ⟨fun hnil => hblank ?_, ih h⟩
        rw [hnil]
        rfl

theorem checkRows_ok (h : HostEvidenceLedger.checkRows binding entries = .ok ()) :
    ∀ e ∈ entries, e.candidateId ≠ "" ∧ e.corpusId = binding.corpusId ∧
      e.revision = binding.revision := by
  induction entries with
  | nil => simp
  | cons e entries ih =>
    unfold HostEvidenceLedger.checkRows at h
    split at h
    · cases h
    · rename_i hblank
      split at h
      · cases h
      · rename_i hsame
        push Not at hsame
        refine forall_mem_cons.mpr ⟨⟨fun hnil => hblank ?_, hsame⟩, ih h⟩
        rw [hnil]
        rfl

theorem new_rows (h : HostEvidenceLedger.new sha256Hex binding evidence = .ok ledger) :
    ∀ e ∈ ledger.entries, e.evidenceId ≠ "" ∧ e.candidateId ≠ "" ∧
      e.corpusId = ledger.binding.corpusId ∧ e.revision = ledger.binding.revision := by
  obtain ⟨hperm, -, -⟩ := new_entries h
  obtain ⟨-, hinsert, -, hbinding⟩ := new_cases h
  have hcheck : HostEvidenceLedger.checkRows binding ledger.entries = .ok () := by
    unfold HostEvidenceLedger.new at h
    split at h
    · cases h
    · split at h
      · cases h
      · rw [hinsert] at h
        dsimp only at h
        split at h
        · cases h
        · cases hrows : HostEvidenceLedger.checkRows binding ledger.entries with
          | error e =>
            rw [hrows] at h
            cases h
          | ok u => rfl
  intro e he
  rw [hbinding]
  exact ⟨insertAll_nonblank hinsert e (hperm.mem_iff.mp he), checkRows_ok hcheck e he⟩

/-! ## What the digest binds -/

/-- The text fields of the rows are written with the characters in `X`. -/
def WrittenIn (X : Char → Prop) (entries : List HostEvidenceEntry) : Prop :=
  ∀ e ∈ entries, ∀ part ∈ e.parts, ∀ c ∈ part.toList, X c

/-- A row of empty fields but for the source label and the locator. -/
def labelled (sourceLabel locator : String) : HostEvidenceEntry :=
  ⟨"", "", sourceLabel, locator, "", ⟨0, 0, 0⟩, .neutral, ""⟩

theorem labelled_collide (sha256Hex : List UInt8 → String) :
    HostEvidenceLedger.digest sha256Hex [labelled "\x00" ""] =
      HostEvidenceLedger.digest sha256Hex [labelled "" "\x00"] := by
  have hbytes : (byEvidenceId [labelled "\x00" ""]).flatMap HostEvidenceEntry.bytes =
      (byEvidenceId [labelled "" "\x00"]).flatMap HostEvidenceEntry.bytes := by decide +kernel
  exact congrArg sha256Hex hbytes

/-- Reordering rows never changes the digest. The digest binds the rows that are written in a set
of characters exactly when the zero character is not one of them, and then a binding is accepted
for one set of rows only. -/
theorem digest_binds {sha256Hex : List UInt8 → String} (hsha : Function.Injective sha256Hex)
    (X : Char → Prop) :
    (∀ l l', UniqueIds l → l.Perm l' →
      HostEvidenceLedger.digest sha256Hex l = HostEvidenceLedger.digest sha256Hex l') ∧
    ((∀ l l', WrittenIn X l → WrittenIn X l' → UniqueIds l → UniqueIds l' →
      HostEvidenceLedger.digest sha256Hex l = HostEvidenceLedger.digest sha256Hex l' →
        l.Perm l') ↔ ¬ X (Char.ofNat 0)) ∧
    (¬ X (Char.ofNat 0) → ∀ binding l l' ledger ledger', WrittenIn X l → WrittenIn X l' →
      HostEvidenceLedger.new sha256Hex binding l = .ok ledger →
      HostEvidenceLedger.new sha256Hex binding l' = .ok ledger' → l.Perm l') := by
  have hfree : ¬ X (Char.ofNat 0) → ∀ l, WrittenIn X l → ∀ e ∈ l, e.NulFree :=
    fun hX l hl e he part hpart hc => hX (hl e he part hpart _ hc)
  refine ⟨fun l l' hu hp => ?_, ⟨fun hbind hX => ?_, fun hX l l' hl hl' _ _ h => ?_⟩, ?_⟩
  · unfold HostEvidenceLedger.digest
    rw [byEvidenceId_of_perm hu hp]
  · have hone : ∀ s ∈ ["\x00", ""], ∀ c ∈ s.toList, X c := by
      intro s hs c hc
      simp only [mem_cons, not_mem_nil, or_false] at hs
      rcases hs with rfl | rfl
      · have hnul : c ∈ [Char.ofNat 0] := hc
        rw [mem_singleton.mp hnul]
        exact hX
      · cases hc
    have hwritten : ∀ a ∈ ["\x00", ""], ∀ b ∈ ["\x00", ""], WrittenIn X [labelled a b] := by
      intro a ha b hb e he part hpart
      rw [mem_singleton] at he
      subst he
      refine hone part ?_
      simp only [HostEvidenceEntry.parts, labelled, mem_cons, not_mem_nil, or_false]
        at hpart ha hb ⊢
      rcases hpart with rfl | rfl | rfl | rfl | rfl | rfl
      · exact .inr rfl
      · exact .inr rfl
      · exact ha
      · exact hb
      · exact .inr rfl
      · exact .inr rfl
    have hp := hbind [labelled "\x00" ""] [labelled "" "\x00"]
      (hwritten _ (by simp) _ (by simp)) (hwritten _ (by simp) _ (by simp))
      (nodup_singleton _) (nodup_singleton _) (labelled_collide sha256Hex)
    have heq := singleton_perm_singleton.mp hp
    exact absurd heq (by decide)
  · exact digest_inj hsha (hfree hX l hl) (hfree hX l' hl') h
  · intro hX binding l l' ledger ledger' hl hl' hnew hnew'
    have hdigest := (new_ok hnew).2.symm.trans (new_ok hnew').2
    exact digest_inj hsha (hfree hX l hl) (hfree hX l' hl') hdigest

/-- A hash without collisions: a character for every byte. -/
def spell (bytes : List UInt8) : String := String.ofList (bytes.map fun b => Char.ofNat b.toNat)

theorem spell_injective : Function.Injective spell := by
  intro a b h
  refine map_injective_iff.mpr (fun x y hxy => ?_) (String.ofList_injective h)
  have hvalid : ∀ z : UInt8, (Char.ofNat z.toNat).toNat = z.toNat := by
    intro z
    have := z.toNat_lt
    rw [Char.toNat_ofNat, if_pos (Or.inl (by omega))]
  have hn := congrArg Char.toNat hxy
  simp only [hvalid] at hn
  exact UInt8.toNat_inj.mp hn

/-- A row of one corpus, as the host makes them. -/
def hostRow (evidenceId sourceLabel locator : String) : HostEvidenceEntry :=
  ⟨evidenceId, "group-1", sourceLabel, locator, "corpus", ⟨1, 1, 1⟩, .neutral, "line"⟩

theorem digest_binds_two : UniqueIds [hostRow "e1" "a" "l", hostRow "e2" "b" "l"] ∧
    HostEvidenceLedger.digest spell [hostRow "e1" "a" "l", hostRow "e2" "b" "l"] =
      HostEvidenceLedger.digest spell [hostRow "e2" "b" "l", hostRow "e1" "a" "l"] :=
  ⟨by decide, (digest_binds spell_injective (· ≠ Char.ofNat 0)).1 _ _ (by decide)
    (List.Perm.swap _ _ [])⟩

/-- Two ledgers of one row that have the same digest whatever the hash, both accepted with the
same binding. -/
theorem digest_collides :
    ¬ [hostRow "e1" "a\x00b" "c"].Perm [hostRow "e1" "a" "b\x00c"] ∧
    (∀ sha256Hex, HostEvidenceLedger.digest sha256Hex [hostRow "e1" "a\x00b" "c"] =
      HostEvidenceLedger.digest sha256Hex [hostRow "e1" "a" "b\x00c"]) ∧
    ∃ binding, HostEvidenceLedger.new spell binding [hostRow "e1" "a\x00b" "c"] =
        .ok ⟨binding, [hostRow "e1" "a\x00b" "c"]⟩ ∧
      HostEvidenceLedger.new spell binding [hostRow "e1" "a" "b\x00c"] =
        .ok ⟨binding, [hostRow "e1" "a" "b\x00c"]⟩ := by
  refine ⟨fun hp => ?_, fun sha256Hex => ?_, ?_⟩
  · exact absurd (singleton_perm_singleton.mp hp) (by decide)
  · have hbytes : (byEvidenceId [hostRow "e1" "a\x00b" "c"]).flatMap HostEvidenceEntry.bytes =
        (byEvidenceId [hostRow "e1" "a" "b\x00c"]).flatMap HostEvidenceEntry.bytes := by
      decide +kernel
    exact congrArg sha256Hex hbytes
  · refine ⟨⟨"session", "turn", "corpus", ⟨1, 1, 1⟩,
      HostEvidenceLedger.digest spell [hostRow "e1" "a" "b\x00c"]⟩, ?_, ?_⟩
    · rfl
    · rfl

end ContextDesk
