import ContextDesk.FastTriage.Conformance
import ContextDesk.InvestigationDisplay

/-!
# Which packets can be answered

The checks of the contract are independent of the order of the answer (`conforms_iff_of_permuted`). A
packet has an acceptable answer exactly when its causes and symptoms stand in the scope of a
candidate: `proposalByRole` then puts each row into the section of its role.
-/

namespace ContextDesk

open Lib List

/-! ## The order of the answer -/

section

variable {packet : FastTriagePacketV1} {candidates candidates' : List InvestigationCandidateV1}

theorem ClaimPermuted.cites_iff {a b : InvestigationClaimV1} (h : ClaimPermuted a b)
    (row : FastTriagePacketRow) : ClaimCites packet a row ↔ ClaimCites packet b row := by
  unfold ClaimCites
  simp only [h.evidenceIds.mem_iff]

theorem ClaimPermuted.nil_iff {a b : InvestigationClaimV1} (h : ClaimPermuted a b) :
    a.evidenceIds = [] ↔ b.evidenceIds = [] := by
  rw [← length_eq_zero_iff, ← length_eq_zero_iff, h.evidenceIds.length_eq]

variable (h : Shuffled CandidatePermuted candidates candidates')

include h

theorem kindCites_iff (kind : ClaimKind) (row : FastTriagePacketRow) :
    KindCites packet candidates kind row ↔ KindCites packet candidates' kind row := by
  refine h.exists_iff fun a b hab => hab.claims.exists_iff fun c d hcd => ?_
  rw [hcd.claimKind, hcd.cites_iff]

theorem citedOrdinals_eq (candidateId : String) (kind : ClaimKind) :
    citedOrdinals packet candidates candidateId kind =
      citedOrdinals packet candidates' candidateId kind := by
  ext n
  refine h.exists_iff fun a b hab => ?_
  rw [hab.candidateId]
  refine and_congr_right fun _ => hab.claims.exists_iff fun c d hcd => ?_
  rw [hcd.claimKind]
  simp only [hcd.cites_iff]

theorem covers_iff (role : EvidenceRole) (kinds : List ClaimKind) (candidateId : String) :
    CoversRole packet candidates role kinds candidateId ↔
      CoversRole packet candidates' role kinds candidateId := by
  refine h.exists_iff fun a b hab => ?_
  rw [hab.candidateId]
  refine and_congr_right fun _ => hab.claims.exists_iff fun c d hcd => ?_
  rw [hcd.claimKind]
  simp only [hcd.evidenceIds.mem_iff]

theorem conforms_iff_of_permuted : Conforms packet candidates ↔ Conforms packet candidates' := by
  have hroots : (∀ candidate ∈ candidates, ∀ claim ∈ candidate.claims,
      claim.claimKind = .initiatingCause → claim.status ≠ .withheld) ↔
      ∀ candidate ∈ candidates', ∀ claim ∈ candidate.claims,
        claim.claimKind = .initiatingCause → claim.status ≠ .withheld := by
    refine h.forall_iff fun a b hab => hab.claims.forall_iff fun c d hcd => ?_
    rw [hcd.claimKind, hcd.status]
  have hgrounded : ∀ row : FastTriagePacketRow, (∃ candidate ∈ candidates,
      candidate.candidateId = row.candidateId ∧
        ∃ claim ∈ candidate.claims, claim.evidenceIds ≠ []) ↔
      ∃ candidate ∈ candidates', candidate.candidateId = row.candidateId ∧
        ∃ claim ∈ candidate.claims, claim.evidenceIds ≠ [] := by
    refine fun row => h.exists_iff fun a b hab => ?_
    rw [hab.candidateId]
    refine and_congr_right fun _ => hab.claims.exists_iff fun c d hcd => ?_
    exact not_congr hcd.nil_iff
  rw [conforms_iff, conforms_iff, hroots]
  simp only [hgrounded, kindCites_iff h, citedOrdinals_eq h, covers_iff h]

end

section

variable {ledger : HostEvidenceLedger}

theorem grantCandidate_permuted {a b : ModelCandidateV1} (h : CandidateReordered a b) :
    CandidatePermuted (grantCandidate ledger a) (grantCandidate ledger b) := by
  have hclaims : Shuffled ClaimPermuted
      (a.sections.flatMap fun s => s.2.map (grantClaim ledger a.candidateId s.1))
      (b.sections.flatMap fun s => s.2.map (grantClaim ledger b.candidateId s.1)) := by
    refine h.shuffled.flatMap fun s t hst => hst.2.map fun c d hcd => ?_
    refine ⟨hcd.claimId, hst.1, hcd.text, ?_, hcd.evidenceIds⟩
    unfold grantClaim statusOf
    dsimp only
    rw [hst.1, hcd.causeRoot_eq]
  exact ⟨h.candidateId, hclaims⟩

/-- An answer is accepted when the proposal is and the answer conforms. -/
theorem validateFastAnswer_accepted {fromStr : String → Option ModelInvestigationAnswerV1}
    {raw : String} {packet : FastTriagePacketV1} {env : AnswerEnvelopeV1}
    (hne : packet.ledger.entries ≠ []) :
    validateFastAnswer fromStr raw packet = .accepted env ↔
      ∃ proposal, fromStr raw = some proposal ∧ Accepted packet.ledger proposal ∧
        env = envelope packet.ledger proposal ∧ Conforms packet env.answer.candidates := by
  have hshared := @validateModelAnswer_ok packet.ledger fromStr raw
  unfold validateFastAnswer
  cases hv : validateModelAnswer fromStr raw packet.ledger with
  | error e =>
    refine ⟨fun h => (by cases h), ?_⟩
    rintro ⟨proposal, hraw, haccepted, rfl, -⟩
    rw [(hshared hne).mpr ⟨proposal, hraw, haccepted, rfl⟩] at hv
    cases hv
  | ok env' =>
    obtain ⟨proposal, hraw, haccepted, rfl⟩ := (hshared hne).mp hv
    have hconforms := @contractCategories_eq_nil packet _
      (@candidateIds_nodup packet.ledger proposal haccepted.2.2.1)
    dsimp only
    constructor
    · intro h
      split at h
      · rename_i hnil
        cases h
        exact ⟨proposal, hraw, haccepted, rfl, hconforms.mp hnil⟩
      · cases h
    · rintro ⟨proposal', hraw', -, rfl, hok⟩
      obtain rfl := Option.some.inj (hraw.symm.trans hraw')
      rw [if_pos (hconforms.mpr hok)]

/-- Every text that reads as the proposal is accepted. -/
def Acceptable (packet : FastTriagePacketV1) (proposal : ModelInvestigationAnswerV1) : Prop :=
  ∀ (fromStr : String → Option ModelInvestigationAnswerV1) (raw : String),
    fromStr raw = some proposal → ∃ env, validateFastAnswer fromStr raw packet = .accepted env

theorem acceptable_iff {packet : FastTriagePacketV1} (hne : packet.ledger.entries ≠ [])
    {proposal : ModelInvestigationAnswerV1} :
    Acceptable packet proposal ↔ Accepted packet.ledger proposal ∧
      Conforms packet (envelope packet.ledger proposal).answer.candidates := by
  constructor
  · intro h
    obtain ⟨env, hok⟩ := h (fun _ => some proposal) "" rfl
    obtain ⟨p, hp, haccepted, rfl, hconforms⟩ := (validateFastAnswer_accepted hne).mp hok
    obtain rfl := Option.some.inj hp
    exact ⟨haccepted, hconforms⟩
  · rintro ⟨haccepted, hconforms⟩ fromStr raw hraw
    exact ⟨_, (validateFastAnswer_accepted hne).mpr ⟨proposal, hraw, haccepted, rfl, hconforms⟩⟩

theorem Reordered.acceptable_iff {packet : FastTriagePacketV1}
    (hne : packet.ledger.entries ≠ []) {p q : ModelInvestigationAnswerV1} (h : Reordered p q) :
    Acceptable packet p ↔ Acceptable packet q := by
  have hshuffled : Shuffled CandidatePermuted (envelope packet.ledger p).answer.candidates
      (envelope packet.ledger q).answer.candidates :=
    h.candidates.map fun a b hab => grantCandidate_permuted hab
  rw [ContextDesk.acceptable_iff hne, ContextDesk.acceptable_iff hne, h.accepted_iff,
    conforms_iff_of_permuted hshuffled]

end

/-! ## The rows of a packet -/

/-- The packet has one row for each row of its ledger, and its scope follows from the candidate. -/
structure RowsOf (packet : FastTriagePacketV1)
    (project : HostEvidenceEntry → FastTriagePacketRow) : Prop where
  rows : packet.rows = packet.ledger.entries.map project
  evidenceId : ∀ e, (project e).evidenceId = e.evidenceId
  candidateId : ∀ e, (project e).candidateId = e.candidateId
  role : ∀ e, (project e).role = e.role
  scope : ∀ e, (project e).scope = scopeOf packet.independentCandidateId e.candidateId

theorem build_rowsOf (sha256Hex : List UInt8 → String) (classify : NeighborhoodClassifier)
    (inputs : FastTriagePacketInputs) :
    ∃ project, RowsOf (FastTriagePacketV1.build sha256Hex classify inputs) project :=
  ⟨_, rfl, fun _ => rfl, fun _ => rfl, fun _ => rfl, fun _ => rfl⟩

/-- The causes and the symptoms of each candidate stand in the scope of a candidate. -/
def RolesInScope (packet : FastTriagePacketV1) : Prop :=
  ∀ role, role = .cause ∨ role = .symptom → ∀ row ∈ packet.rows, row.role = role →
    ∃ other ∈ packet.rows, other.candidateId = row.candidateId ∧ other.role = role ∧
      other.scope = .candidate

section

variable {packet : FastTriagePacketV1} {project : HostEvidenceEntry → FastTriagePacketRow}
  (hrows : RowsOf packet project) (hu : UniqueIds packet.ledger.entries)

include hrows

variable {row : FastTriagePacketRow}

theorem mem_rows_iff : row ∈ packet.rows ↔ ∃ e ∈ packet.ledger.entries, project e = row := by
  rw [hrows.rows, mem_map]

theorem row_eq_map (id : String) : packet.row id = (packet.ledger.get id).map project := by
  unfold FastTriagePacketV1.row HostEvidenceLedger.get
  rw [hrows.rows, find?_map]
  congr 2
  funext e
  rw [Function.comp_apply, hrows.evidenceId]

include hu

theorem row_iff {id : String} :
    packet.row id = some row ↔ ∃ e ∈ packet.ledger.entries, e.evidenceId = id ∧
      project e = row := by
  rw [row_eq_map hrows, Option.map_eq_some_iff]
  simp only [get_iff hu, and_assoc]

theorem claimCites_of_mem {claim : InvestigationClaimV1} (hrow : row ∈ packet.rows)
    (hid : row.evidenceId ∈ claim.evidenceIds) : ClaimCites packet claim row := by
  obtain ⟨e, he, rfl⟩ := (mem_rows_iff hrows).mp hrow
  exact ⟨_, hid, (row_iff hrows hu).mpr ⟨e, he, (hrows.evidenceId e).symm, rfl⟩⟩

theorem scope_of_covers {candidates : List InvestigationCandidateV1}
    (hc : Conforms packet candidates) {role : EvidenceRole} {kinds : List ClaimKind}
    {candidateId : String} (hkinds : ∀ kind ∈ kinds, isChainKind kind = true)
    (h : CoversRole packet candidates role kinds candidateId) :
    ∃ other ∈ packet.rows, other.candidateId = candidateId ∧ other.role = role ∧
      other.scope = .candidate := by
  obtain ⟨candidate, hcandidate, -, claim, hclaim, hkind, row, hrow, hid, hrole, hown⟩ := h
  refine ⟨row, hrow, hown, hrole, hc.scopes claim.claimKind row ?_ (hkinds _ hkind)⟩
  exact ⟨candidate, hcandidate, claim, hclaim, rfl, claimCites_of_mem hrows hu hrow hid⟩

theorem rolesInScope_of_conforms {candidates : List InvestigationCandidateV1}
    (hc : Conforms packet candidates) : RolesInScope packet := by
  rintro role (rfl | rfl) row hrow hrole
  · exact scope_of_covers hrows hu hc (by decide) (hc.causes row hrow hrole)
  · exact scope_of_covers hrows hu hc (by decide) (hc.symptoms row hrow hrole)

end

/-! ## The answer by roles -/

def kindForRole : EvidenceRole → ClaimKind
  | .cause => .causalCandidate
  | .symptom => .symptom
  | .supporting => .observation
  | .neutral => .observation

def claimForRow (e : HostEvidenceEntry) : ModelClaimV1 := ⟨e.evidenceId, e.content, [e.evidenceId]⟩

section

variable (ledger : HostEvidenceLedger)

/-- The rows of the candidate that go into the section. -/
def rowsOfKind (candidateId : String) (kind : ClaimKind) : List HostEvidenceEntry :=
  ledger.entries.filter fun e => e.candidateId = candidateId ∧ kindForRole e.role = kind

def candidateByRole (candidateId : String) : ModelCandidateV1 :=
  { candidateId := candidateId,
    observations := (rowsOfKind ledger candidateId .observation).map claimForRow,
    symptoms := (rowsOfKind ledger candidateId .symptom).map claimForRow,
    causalCandidates := (rowsOfKind ledger candidateId .causalCandidate).map claimForRow }

/-- The proposal that puts each row into the section of its role. -/
def proposalByRole : ModelInvestigationAnswerV1 :=
  { schema := SCHEMA_V1, candidates := ledger.candidateIds.dedup.map (candidateByRole ledger) }

variable {ledger}

theorem rowsOfKind_eq_nil (candidateId : String) {kind : ClaimKind}
    (h : ∀ role, kindForRole role ≠ kind) : rowsOfKind ledger candidateId kind = [] :=
  filter_eq_nil_iff.mpr fun e _ => by simp [h e.role]

variable {candidateId : String}

theorem section_eq {s : ClaimKind × List ModelClaimV1}
    (hs : s ∈ (candidateByRole ledger candidateId).sections) :
    s.2 = (rowsOfKind ledger candidateId s.1).map claimForRow := by
  simp only [ModelCandidateV1.sections, candidateByRole, mem_cons, not_mem_nil,
    or_false] at hs
  rcases hs with rfl | rfl | rfl | rfl | rfl | rfl
  · rfl
  · rfl
  · rfl
  · rw [rowsOfKind_eq_nil candidateId fun role => by cases role <;> decide, map_nil]
  · rw [rowsOfKind_eq_nil candidateId fun role => by cases role <;> decide, map_nil]
  · rw [rowsOfKind_eq_nil candidateId fun role => by cases role <;> decide, map_nil]

theorem mem_section {s : ClaimKind × List ModelClaimV1}
    (hs : s ∈ (candidateByRole ledger candidateId).sections) {claim : ModelClaimV1} :
    claim ∈ s.2 ↔ ∃ e ∈ ledger.entries, e.candidateId = candidateId ∧
      kindForRole e.role = s.1 ∧ claim = claimForRow e := by
  rw [section_eq hs]
  simp only [rowsOfKind, mem_map, mem_filter, decide_eq_true_eq, and_assoc]
  exact ⟨fun ⟨e, he, hown, hrole, h⟩ => ⟨e, he, hown, hrole, h.symm⟩,
    fun ⟨e, he, hown, hrole, h⟩ => ⟨e, he, hown, hrole, h.symm⟩⟩

theorem exists_section (role : EvidenceRole) (candidateId : String) :
    ∃ s ∈ (candidateByRole ledger candidateId).sections, s.1 = kindForRole role := by
  cases role <;> simp [ModelCandidateV1.sections, kindForRole]

theorem mem_candidateClaims {claim : InvestigationClaimV1} :
    claim ∈ (grantCandidate ledger (candidateByRole ledger candidateId)).claims ↔
      ∃ e ∈ ledger.entries, e.candidateId = candidateId ∧
        claim = grantClaim ledger candidateId (kindForRole e.role) (claimForRow e) := by
  simp only [grantCandidate, mem_flatMap, mem_map]
  constructor
  · rintro ⟨s, hs, m, hm, rfl⟩
    obtain ⟨e, he, hown, hkind, rfl⟩ := (mem_section hs).mp hm
    exact ⟨e, he, hown, by rw [hkind]; rfl⟩
  · rintro ⟨e, he, hown, rfl⟩
    obtain ⟨s, hs, hkind⟩ := exists_section e.role candidateId
    refine ⟨s, hs, claimForRow e, (mem_section hs).mpr ⟨e, he, hown, hkind.symm, rfl⟩, ?_⟩
    rw [hkind]
    rfl

theorem mem_candidatesByRole {candidate : InvestigationCandidateV1} :
    candidate ∈ (envelope ledger (proposalByRole ledger)).answer.candidates ↔
      ∃ id ∈ ledger.candidateIds,
        candidate = grantCandidate ledger (candidateByRole ledger id) := by
  simp only [envelope, proposalByRole, mem_map, mem_dedup, exists_exists_and_eq_and]
  simp only [eq_comm]

theorem mem_claimKeysByRole {key : AnswerKey} :
    key ∈ (candidateByRole ledger candidateId).claimKeys ↔
      ∃ e ∈ ledger.entries, e.candidateId = candidateId ∧ key = .claim e.evidenceId := by
  simp only [ModelCandidateV1.claimKeys, mem_flatMap, mem_singleton]
  constructor
  · rintro ⟨s, hs, m, hm, rfl⟩
    obtain ⟨e, he, hown, -, rfl⟩ := (mem_section hs).mp hm
    exact ⟨e, he, hown, rfl⟩
  · rintro ⟨e, he, hown, rfl⟩
    obtain ⟨s, hs, hkind⟩ := exists_section e.role candidateId
    exact ⟨s, hs, claimForRow e, (mem_section hs).mpr ⟨e, he, hown, hkind.symm, rfl⟩, rfl⟩

theorem mem_keysByRole {id : String} :
    .candidate id ∈ (proposalByRole ledger).keys ↔ id ∈ ledger.candidateIds := by
  simp only [ModelInvestigationAnswerV1.keys, proposalByRole, mem_flatMap, mem_map,
    mem_dedup, exists_exists_and_eq_and, mem_cons, mem_claimKeysByRole]
  constructor
  · rintro ⟨id', hid, hkey | ⟨e, -, -, hkey⟩⟩
    · cases hkey
      exact hid
    · cases hkey
  · exact fun hid => ⟨id, hid, .inl rfl⟩

section

variable (hu : UniqueIds ledger.entries)

include hu

theorem claimKeysByRole_nodup (candidateId : String) :
    (candidateByRole ledger candidateId).claimKeys.Nodup := by
  refine nodup_flatMap.mpr ⟨fun s hs => ?_, ?_⟩
  · have hids : s.2.flatMap (fun claim => [AnswerKey.claim claim.claimId]) =
        ((rowsOfKind ledger candidateId s.1).map HostEvidenceEntry.evidenceId).map .claim := by
      rw [section_eq hs, flatMap_map, ← map_eq_flatMap, map_map]
      rfl
    rw [hids]
    refine List.Nodup.map (fun a b hab => AnswerKey.claim.inj hab) ?_
    exact List.Nodup.sublist (filter_sublist.map _) hu
  · have hkinds : (candidateByRole ledger candidateId).sections.Pairwise
        fun s t => s.1 ≠ t.1 := pairwise_map.mp (by decide : List.Pairwise (· ≠ ·)
          [ClaimKind.observation, .symptom, .causalCandidate, .initiatingCause,
            .competingExplanation, .missingEvidence])
    refine hkinds.imp_of_mem fun {s t} hs ht hne key hks hkt => hne ?_
    obtain ⟨m, hm, hk⟩ := mem_flatMap.mp hks
    obtain ⟨m', hm', hk'⟩ := mem_flatMap.mp hkt
    obtain ⟨e, he, -, hkind, rfl⟩ := (mem_section hs).mp hm
    obtain ⟨e', he', -, hkind', rfl⟩ := (mem_section ht).mp hm'
    rw [mem_singleton.mp hk, mem_singleton] at hk'
    have hsame := inj_on_of_nodup_map hu he he' (AnswerKey.claim.inj hk')
    rw [← hkind, ← hkind', hsame]

theorem keysByRole_nodup : (proposalByRole ledger).keys.Nodup := by
  unfold ModelInvestigationAnswerV1.keys proposalByRole
  rw [flatMap_map]
  refine nodup_flatMap.mpr ⟨fun id _ => ?_, ?_⟩
  · refine nodup_cons.mpr ⟨fun hmem => ?_, claimKeysByRole_nodup hu id⟩
    obtain ⟨e, -, -, hkey⟩ := mem_claimKeysByRole.mp hmem
    cases hkey
  · refine (nodup_dedup ledger.candidateIds).imp fun {a b} hne key ha hb => hne ?_
    rcases mem_cons.mp ha with rfl | ha
    · rcases mem_cons.mp hb with hkey | hb
      · exact AnswerKey.candidate.inj hkey
      · obtain ⟨e, -, -, hkey⟩ := mem_claimKeysByRole.mp hb
        cases hkey
    · obtain ⟨e, he, hown, rfl⟩ := mem_claimKeysByRole.mp ha
      rcases mem_cons.mp hb with hkey | hb
      · cases hkey
      · obtain ⟨e', he', hown', hkey⟩ := mem_claimKeysByRole.mp hb
        have hsame := inj_on_of_nodup_map hu he he' (AnswerKey.claim.inj hkey)
        rw [← hown, ← hown', hsame]

theorem acceptedByRole (hvalid : ∀ e ∈ ledger.entries, e.evidenceId ≠ "" ∧ e.candidateId ≠ "" ∧
    e.corpusId = ledger.binding.corpusId ∧ e.revision = ledger.binding.revision) :
    Accepted ledger (proposalByRole ledger) := by
  refine ⟨rfl, fun candidate hc => ?_, keysByRole_nodup hu, fun id => mem_keysByRole⟩
  obtain ⟨id, hid, rfl⟩ := mem_map.mp hc
  obtain ⟨own, hown, rfl⟩ := mem_map.mp (mem_dedup.mp hid)
  refine ⟨(hvalid own hown).2.1, fun s hs claim hclaim => ?_⟩
  obtain ⟨e, he, hsame, hkind, rfl⟩ := (mem_section hs).mp hclaim
  refine ⟨(hvalid e he).1, fun hnil => absurd hnil (cons_ne_nil _ _),
    nodup_singleton _, fun id hmem => ?_⟩
  obtain rfl := mem_singleton.mp hmem
  refine ⟨e, (get_iff hu).mpr ⟨he, rfl⟩, ?_, hsame, (hvalid e he).2.2⟩
  rintro ⟨hcausal, hsymptom⟩
  rw [← hkind, hsymptom] at hcausal
  cases hcausal

end

end

/-! ## Conformance of the answer by roles -/

section

variable {packet : FastTriagePacketV1} {project : HostEvidenceEntry → FastTriagePacketRow}
  (hrows : RowsOf packet project) (hu : UniqueIds packet.ledger.entries)

include hrows hu

variable {row : FastTriagePacketRow}

theorem claimCitesByRole {candidateId : String} {kind : ClaimKind} {e : HostEvidenceEntry}
    (he : e ∈ packet.ledger.entries) :
    ClaimCites packet (grantClaim packet.ledger candidateId kind (claimForRow e)) row ↔
      project e = row := by
  constructor
  · rintro ⟨id, hid, hrow⟩
    obtain rfl : id = e.evidenceId := mem_singleton.mp hid
    obtain ⟨e', he', hsame, rfl⟩ := (row_iff hrows hu).mp hrow
    rw [inj_on_of_nodup_map hu he' he hsame]
  · rintro rfl
    exact ⟨e.evidenceId, mem_singleton_self _, (row_iff hrows hu).mpr ⟨e, he, rfl, rfl⟩⟩

theorem kindCitesByRole {kind : ClaimKind} :
    KindCites packet (envelope packet.ledger (proposalByRole packet.ledger)).answer.candidates
      kind row ↔ row ∈ packet.rows ∧ kindForRole row.role = kind := by
  constructor
  · rintro ⟨_, hc, _, hm, rfl, hcites⟩
    obtain ⟨id, -, rfl⟩ := mem_candidatesByRole.mp hc
    obtain ⟨e, he, -, rfl⟩ := mem_candidateClaims.mp hm
    obtain rfl := (claimCitesByRole hrows hu he).mp hcites
    exact ⟨(mem_rows_iff hrows).mpr ⟨e, he, rfl⟩, by rw [hrows.role]; rfl⟩
  · rintro ⟨hrow, rfl⟩
    obtain ⟨e, he, rfl⟩ := (mem_rows_iff hrows).mp hrow
    refine ⟨_, mem_candidatesByRole.mpr ⟨e.candidateId, mem_map_of_mem he, rfl⟩, _,
      mem_candidateClaims.mpr ⟨e, he, rfl, rfl⟩, ?_, (claimCitesByRole hrows hu he).mpr rfl⟩
    rw [hrows.role]
    rfl

omit hu in
theorem coversByRole {row : FastTriagePacketRow} (hrow : row ∈ packet.rows)
    {kinds : List ClaimKind} (hkind : kindForRole row.role ∈ kinds) :
    CoversRole packet (envelope packet.ledger (proposalByRole packet.ledger)).answer.candidates
      row.role kinds row.candidateId := by
  obtain ⟨e, he, rfl⟩ := (mem_rows_iff hrows).mp hrow
  refine ⟨_, mem_candidatesByRole.mpr ⟨e.candidateId, mem_map_of_mem he, rfl⟩, ?_, _,
    mem_candidateClaims.mpr ⟨e, he, rfl, rfl⟩, ?_, project e, hrow, ?_, rfl, rfl⟩
  · exact (hrows.candidateId e).symm
  · rwa [hrows.role] at hkind
  · rw [hrows.evidenceId]
    exact mem_singleton_self _

omit hu in
theorem scope_of_rolesInScope (hscope : RolesInScope packet) (hrow : row ∈ packet.rows)
    (hrole : row.role = .cause ∨ row.role = .symptom) : row.scope = .candidate := by
  obtain ⟨other, hother, hown, -, hs⟩ := hscope row.role hrole row hrow rfl
  obtain ⟨e, -, rfl⟩ := (mem_rows_iff hrows).mp hrow
  obtain ⟨e', -, rfl⟩ := (mem_rows_iff hrows).mp hother
  rw [hrows.candidateId, hrows.candidateId] at hown
  rw [hrows.scope, ← hown, ← hrows.scope, hs]

theorem conformsByRole (hscope : RolesInScope packet) :
    Conforms packet
      (envelope packet.ledger (proposalByRole packet.ledger)).answer.candidates := by
  have hrole : ∀ role, kindForRole role ≠ .initiatingCause := fun role => by cases role <;> decide
  have hcompeting : ∀ role, kindForRole role ≠ .competingExplanation :=
    fun role => by cases role <;> decide
  constructor
  case roots =>
    rintro _ hc _ hm hkind
    obtain ⟨id, -, rfl⟩ := mem_candidatesByRole.mp hc
    obtain ⟨e, -, -, rfl⟩ := mem_candidateClaims.mp hm
    exact absurd hkind (hrole e.role)
  case roles =>
    intro kind row hcites hkind hsymptom
    obtain ⟨-, rfl⟩ := (kindCitesByRole hrows hu).mp hcites
    rw [hsymptom] at hkind
    rcases hkind with hkind | hkind <;> cases hkind
  case scopes =>
    intro kind row hcites hchain
    obtain ⟨hrow, rfl⟩ := (kindCitesByRole hrows hu).mp hcites
    refine scope_of_rolesInScope hrows hscope hrow ?_
    cases hr : row.role
    · exact .inl rfl
    · rw [hr] at hchain
      cases hchain
    · exact .inr rfl
    · rw [hr] at hchain
      cases hchain
  case apart =>
    exact fun _ row _ _ hcites => hcompeting row.role ((kindCitesByRole hrows hu).mp hcites).2
  case unmixed =>
    exact fun row hcites => absurd ((kindCitesByRole hrows hu).mp hcites).2 (hrole row.role)
  case chronology =>
    rintro candidateId cause symptom ⟨⟨_, hc, -, _, hm, hkind, row, hcites, -⟩, -⟩
    have hrow : KindCites packet _ .initiatingCause row := ⟨_, hc, _, hm, hkind, hcites⟩
    exact absurd ((kindCitesByRole hrows hu).mp hrow).2 (hrole row.role)
  case causes =>
    intro row hrow hcause
    rw [← hcause]
    exact coversByRole hrows hrow (by rw [hcause]; decide)
  case symptoms =>
    intro row hrow hsymptom
    rw [← hsymptom]
    exact coversByRole hrows hrow (by rw [hsymptom]; decide)
  case grounded =>
    intro row hrow
    obtain ⟨e, he, rfl⟩ := (mem_rows_iff hrows).mp hrow
    refine ⟨_, mem_candidatesByRole.mpr ⟨e.candidateId, mem_map_of_mem he, rfl⟩,
      (hrows.candidateId e).symm, _, mem_candidateClaims.mpr ⟨e, he, rfl, rfl⟩,
      cons_ne_nil _ _⟩

end

/-! ## What accepted answers keep -/

/-- The candidate has a row of the role, so a claim of one of the kinds cites such a row of it. -/
def RoleCovered (packet : FastTriagePacketV1) (candidates : List InvestigationCandidateV1)
    (role : EvidenceRole) (kinds : List ClaimKind) : Prop :=
  ∀ row ∈ packet.rows, row.role = role → CoversRole packet candidates role kinds row.candidateId

structure RolesKept (packet : FastTriagePacketV1) (candidates : List InvestigationCandidateV1) :
    Prop where
  chain : ∀ candidate ∈ candidates, ∀ claim ∈ candidate.claims,
    isChainKind claim.claimKind = true → ∀ id ∈ claim.evidenceIds,
      ∃ row, packet.row id = some row ∧ row.scope = .candidate
  causes : RoleCovered packet candidates .cause [.causalCandidate, .initiatingCause]
  symptoms : RoleCovered packet candidates .symptom [.symptom]
  apart : ∀ candidate ∈ candidates, ∀ claim ∈ candidate.claims,
    isChainKind claim.claimKind = true → ∀ candidate' ∈ candidates, ∀ other ∈ candidate'.claims,
      other.claimKind = .competingExplanation → List.Disjoint claim.evidenceIds other.evidenceIds
  /-- The earliest ordinal that a candidate cites as an initiating cause is no later than the
  earliest that it cites as a symptom. -/
  chronology : ∀ candidateId cause symptom,
    IsLeast (citedOrdinals packet candidates candidateId .initiatingCause) cause →
    IsLeast (citedOrdinals packet candidates candidateId .symptom) symptom → cause ≤ symptom
  present : ∀ row ∈ packet.rows, ∃ candidate ∈ candidates, candidate.candidateId = row.candidateId
  grounded : ∀ candidate ∈ candidates, ∃ claim ∈ candidate.claims, claim.evidenceIds ≠ []

section

variable {packet : FastTriagePacketV1} {project : HostEvidenceEntry → FastTriagePacketRow}
  (hrows : RowsOf packet project) (hu : UniqueIds packet.ledger.entries)

include hrows hu

theorem rolesKept_of_accepted {proposal : ModelInvestigationAnswerV1}
    (haccepted : Accepted packet.ledger proposal)
    (hc : Conforms packet (envelope packet.ledger proposal).answer.candidates) :
    RolesKept packet (envelope packet.ledger proposal).answer.candidates := by
  have hhost := envelope_grounded hu haccepted
  -- every cited id is found
  have hfound : ∀ candidate ∈ (envelope packet.ledger proposal).answer.candidates,
      ∀ claim ∈ candidate.claims, ∀ id ∈ claim.evidenceIds,
        ∃ row, packet.row id = some row ∧ ClaimCites packet claim row := by
    intro candidate hcandidate claim hclaim id hid
    obtain ⟨e, he, rfl, -⟩ := (hhost.own_rows candidate hcandidate claim hclaim).2 id hid
    have hrow := (row_iff hrows hu).mpr ⟨e, he, rfl, rfl⟩
    exact ⟨_, hrow, _, hid, hrow⟩
  constructor
  case causes => exact hc.causes
  case symptoms => exact hc.symptoms
  case chronology => exact hc.chronology
  case chain =>
    intro candidate hcandidate claim hclaim hchain id hid
    obtain ⟨row, hrow, hcites⟩ := hfound candidate hcandidate claim hclaim id hid
    exact ⟨row, hrow,
      hc.scopes _ row ⟨candidate, hcandidate, claim, hclaim, rfl, hcites⟩ hchain⟩
  case apart =>
    intro candidate hcandidate claim hclaim hchain candidate' hcandidate' other hother hkind id
      hid hid'
    obtain ⟨row, hrow, hcites⟩ := hfound candidate hcandidate claim hclaim id hid
    exact hc.apart _ row ⟨candidate, hcandidate, claim, hclaim, rfl, hcites⟩ hchain
      ⟨candidate', hcandidate', other, hother, hkind, id, hid', hrow⟩
  case present =>
    intro row hrow
    obtain ⟨candidate, hcandidate, hown, -⟩ := hc.grounded row hrow
    exact ⟨candidate, hcandidate, hown⟩
  case grounded =>
    intro candidate hcandidate
    have hid := (hhost.mem_candidates _).mp (mem_map_of_mem hcandidate)
    obtain ⟨e, he, hown⟩ := mem_map.mp hid
    obtain ⟨candidate', hcandidate', hsame, hclaims⟩ :=
      hc.grounded (project e) ((mem_rows_iff hrows).mpr ⟨e, he, rfl⟩)
    rw [hrows.candidateId, hown] at hsame
    rwa [← inj_on_of_nodup_map hhost.candidates_nodup hcandidate' hcandidate hsame]

end

/-- Some proposal is acceptable exactly when the causes and symptoms stand in the scope of a
candidate, what is accepted keeps the roles, and the order of a proposal does not matter. -/
theorem validateFastAnswer_satisfiable {sha256Hex : List UInt8 → String}
    {binding : AnswerBindingV1} {evidence : List HostEvidenceEntry}
    {inputs : FastTriagePacketInputs}
    (hledger : HostEvidenceLedger.new sha256Hex binding evidence = .ok inputs.ledger)
    (classify : NeighborhoodClassifier) {packet : FastTriagePacketV1}
    (hpacket : FastTriagePacketV1.build sha256Hex classify inputs = packet) :
    ((∃ proposal, Acceptable packet proposal) ↔ RolesInScope packet) ∧
    (∀ fromStr raw env, validateFastAnswer fromStr raw packet = .accepted env →
      RolesKept packet env.answer.candidates) ∧
    ∀ p q, Reordered p q → (Acceptable packet p ↔ Acceptable packet q) := by
  obtain ⟨-, hu, hne⟩ := new_entries hledger
  obtain ⟨project, hrows⟩ := build_rowsOf sha256Hex classify inputs
  rw [hpacket] at hrows
  have hsame : packet.ledger = inputs.ledger := by rw [← hpacket]; rfl
  rw [← hsame] at hu hne
  refine ⟨⟨?_, fun hscope => ?_⟩, fun fromStr raw env hok => ?_,
    fun p q h => h.acceptable_iff hne⟩
  · rintro ⟨proposal, h⟩
    exact rolesInScope_of_conforms hrows hu ((acceptable_iff hne).mp h).2
  · refine ⟨proposalByRole packet.ledger, (acceptable_iff hne).mpr ⟨acceptedByRole hu ?_,
      conformsByRole hrows hu hscope⟩⟩
    rw [hsame]
    exact new_rows hledger
  · obtain ⟨proposal, -, haccepted, rfl, hconforms⟩ := (validateFastAnswer_accepted hne).mp hok
    exact rolesKept_of_accepted hrows hu haccepted hconforms

/-! ## Two initiating causes -/

def lateRow (id locator : String) (role : EvidenceRole) : HostEvidenceEntry :=
  ⟨id, "c1", "app.log", locator, "corpus", ⟨1, 1, 1⟩, role, "text"⟩

def lateRows : List HostEvidenceEntry :=
  [lateRow "e1" "seq=1" .cause, lateRow "e2" "seq=9" .cause, lateRow "e3" "seq=5" .symptom]

def lateLedger : HostEvidenceLedger :=
  ⟨⟨"session", "turn", "corpus", ⟨1, 1, 1⟩, HostEvidenceLedger.digest spell lateRows⟩, lateRows⟩

def lateInputs : FastTriagePacketInputs := ⟨lateLedger, none, true, .orderOnly, [], ⟨1, 1, 1⟩⟩

def latePacket : FastTriagePacketV1 :=
  FastTriagePacketV1.build spell (fun _ _ _ _ _ => none) lateInputs

/-- One initiating cause before the symptom, another one after it. -/
def lateProposal : ModelInvestigationAnswerV1 :=
  { schema := SCHEMA_V1,
    candidates := [{ candidateId := "c1",
                     symptoms := [⟨"k3", "Requests failed.", ["e3"]⟩],
                     initiatingCauses := [⟨"k1", "The disk was full.", ["e1"]⟩,
                                          ⟨"k2", "The log was full.", ["e2"]⟩] }] }

theorem late_accepted :
    HostEvidenceLedger.new spell lateLedger.binding lateRows = .ok lateLedger ∧
      validateFastAnswer (fun _ => some lateProposal) "" latePacket =
        .accepted (envelope lateLedger lateProposal) := by decide +kernel

theorem validateFastAnswer_satisfiable_late :
    (∃ proposal, Acceptable latePacket proposal) ∧ RolesInScope latePacket ∧
      RolesKept latePacket (envelope lateLedger lateProposal).answer.candidates := by
  have hledger : HostEvidenceLedger.new spell lateLedger.binding lateRows =
      .ok lateInputs.ledger := late_accepted.1
  obtain ⟨hiff, hkept, -⟩ := validateFastAnswer_satisfiable hledger (fun _ _ _ _ _ => none)
    (rfl : _ = latePacket)
  have hscope : RolesInScope latePacket := fun role _ row hrow hrole =>
    ⟨row, hrow, rfl, hrole, by
      obtain ⟨e, -, rfl⟩ := mem_map.mp hrow
      rfl⟩
  exact ⟨hiff.mpr hscope, hscope, hkept _ _ _ late_accepted.2⟩

/-- Each initiating cause begins no later than the symptoms of its candidate. -/
def EachCauseFirst (packet : FastTriagePacketV1) (candidates : List InvestigationCandidateV1) :
    Prop :=
  ∀ candidate ∈ candidates, ∀ claim ∈ candidate.claims, claim.claimKind = .initiatingCause →
    ∀ cause symptom,
      IsLeast {n | ∃ row, ClaimCites packet claim row ∧ row.chronologyOrdinal = some n} cause →
      IsLeast (citedOrdinals packet candidates candidate.candidateId .symptom) symptom →
      cause ≤ symptom

theorem late_cause_accepted : ∃ env,
    validateFastAnswer (fun _ => some lateProposal) "" latePacket = .accepted env ∧
      ¬ EachCauseFirst latePacket env.answer.candidates := by
  refine ⟨_, late_accepted.2, fun h => ?_⟩
  have hsymptom : earliest (citedClaims latePacket
      (envelope lateLedger lateProposal).answer.candidates) "c1" .symptom = some 5 := by rfl
  have hcause : IsLeast {n | ∃ row, ClaimCites latePacket
      (grantClaim lateLedger "c1" .initiatingCause ⟨"k2", "The log was full.", ["e2"]⟩) row ∧
        row.chronologyOrdinal = some n} 9 := by
    have hrow : latePacket.row "e2" = latePacket.rows[1]? := by rfl
    refine ⟨⟨_, ⟨"e2", mem_singleton_self _, hrow.trans rfl⟩, rfl⟩, ?_⟩
    rintro n ⟨row, ⟨id, hid, hget⟩, hn⟩
    obtain rfl := mem_singleton.mp hid
    obtain rfl := Option.some.inj (hrow.symm.trans hget)
    rw [← Option.some.inj hn]
    exact UInt64.le_refl 9
  have hle := h _ (mem_singleton_self _) _ (.tail _ (.tail _ (.head _))) rfl 9 5 hcause
    (earliest_eq_some.mp hsymptom)
  exact absurd hle (by decide)

end ContextDesk
