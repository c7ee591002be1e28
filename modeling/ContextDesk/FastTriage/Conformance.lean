import ContextDesk.FastTriage.Validate
import ContextDesk.InvestigationAuthority

/-!
# What the fast-triage contract asks of an answer

`Conforms` says with quantifiers what the checks of the contract find out by collecting kinds,
ordinals and rows: an answer has no category exactly when it conforms (`contractCategories_eq_nil`).
-/

namespace ContextDesk

open Lib List

section

variable (packet : FastTriagePacketV1)

def ClaimCites (claim : InvestigationClaimV1) (row : FastTriagePacketRow) : Prop :=
  ∃ id ∈ claim.evidenceIds, packet.row id = some row

def KindCites (candidates : List InvestigationCandidateV1) (kind : ClaimKind)
    (row : FastTriagePacketRow) : Prop :=
  ∃ candidate ∈ candidates, ∃ claim ∈ candidate.claims, claim.claimKind = kind ∧
    ClaimCites packet claim row

/-- The ordinals that the candidate cites in claims of the kind. -/
def citedOrdinals (candidates : List InvestigationCandidateV1) (candidateId : String)
    (kind : ClaimKind) : Set UInt64 :=
  {n | ∃ candidate ∈ candidates, candidate.candidateId = candidateId ∧
    ∃ claim ∈ candidate.claims, claim.claimKind = kind ∧
      ∃ row, ClaimCites packet claim row ∧ row.chronologyOrdinal = some n}

/-- The candidate cites one of its rows of the role in a claim of one of the kinds. -/
def CoversRole (candidates : List InvestigationCandidateV1) (role : EvidenceRole)
    (kinds : List ClaimKind) (candidateId : String) : Prop :=
  ∃ candidate ∈ candidates, candidate.candidateId = candidateId ∧ ∃ claim ∈ candidate.claims,
    claim.claimKind ∈ kinds ∧ ∃ row ∈ packet.rows, row.evidenceId ∈ claim.evidenceIds ∧
      row.role = role ∧ row.candidateId = candidateId

@[mk_iff]
structure Conforms (candidates : List InvestigationCandidateV1) : Prop where
  roots : ∀ candidate ∈ candidates, ∀ claim ∈ candidate.claims,
    claim.claimKind = .initiatingCause → claim.status ≠ .withheld
  roles : ∀ kind row, KindCites packet candidates kind row →
    kind = .causalCandidate ∨ kind = .initiatingCause → row.role ≠ .symptom
  scopes : ∀ kind row, KindCites packet candidates kind row → isChainKind kind = true →
    row.scope = .candidate
  apart : ∀ kind row, KindCites packet candidates kind row → isChainKind kind = true →
    ¬ KindCites packet candidates .competingExplanation row
  unmixed : ∀ row, KindCites packet candidates .initiatingCause row →
    ¬ KindCites packet candidates .symptom row
  chronology : ∀ candidateId cause symptom,
    IsLeast (citedOrdinals packet candidates candidateId .initiatingCause) cause →
    IsLeast (citedOrdinals packet candidates candidateId .symptom) symptom → cause ≤ symptom
  causes : ∀ row ∈ packet.rows, row.role = .cause →
    CoversRole packet candidates .cause [.causalCandidate, .initiatingCause] row.candidateId
  symptoms : ∀ row ∈ packet.rows, row.role = .symptom →
    CoversRole packet candidates .symptom [.symptom] row.candidateId
  grounded : ∀ row ∈ packet.rows, ∃ candidate ∈ candidates,
    candidate.candidateId = row.candidateId ∧ ∃ claim ∈ candidate.claims, claim.evidenceIds ≠ []

end

/-! ## The checks one by one -/

section

variable {packet : FastTriagePacketV1} {candidates : List InvestigationCandidateV1}

theorem row_evidenceId {id : String} {row : FastTriagePacketRow} (h : packet.row id = some row) :
    row.evidenceId = id := by
  simpa using find?_some h

theorem mem_citedClaims {cited : CitedClaim} :
    cited ∈ citedClaims packet candidates ↔ ∃ candidate ∈ candidates,
      ∃ claim ∈ candidate.claims, cited = ⟨candidate.candidateId, claim,
        claim.evidenceIds.filterMap packet.row⟩ := by
  simp only [citedClaims, mem_flatMap, mem_map, eq_comm]

theorem mem_citedRows {claim : InvestigationClaimV1} {row : FastTriagePacketRow} :
    row ∈ claim.evidenceIds.filterMap packet.row ↔ ClaimCites packet claim row :=
  mem_filterMap

theorem forall_citedClaims {p : CitedClaim → Prop} :
    (∀ cited ∈ citedClaims packet candidates, p cited) ↔ ∀ candidate ∈ candidates,
      ∀ claim ∈ candidate.claims, p ⟨candidate.candidateId, claim,
        claim.evidenceIds.filterMap packet.row⟩ := by
  simp only [mem_citedClaims]
  constructor
  · exact fun h candidate hc claim hm => h _ ⟨candidate, hc, claim, hm, rfl⟩
  · rintro h _ ⟨candidate, hc, claim, hm, rfl⟩
    exact h candidate hc claim hm

theorem claimCategories_eq_nil :
    (citedClaims packet candidates).flatMap CitedClaim.categories = [] ↔
      (∀ candidate ∈ candidates, ∀ claim ∈ candidate.claims,
        claim.claimKind = .initiatingCause → claim.status ≠ .withheld) ∧
      (∀ kind row, KindCites packet candidates kind row →
        kind = .causalCandidate ∨ kind = .initiatingCause → row.role ≠ .symptom) ∧
      ∀ kind row, KindCites packet candidates kind row → isChainKind kind = true →
        row.scope = .candidate := by
  have hscope : ∀ row : FastTriagePacketRow, row.scope ≠ .independent ↔ row.scope = .candidate := by
    intro row
    cases row.scope <;> decide
  simp only [flatMap_eq_nil_iff, forall_citedClaims, CitedClaim.categories,
    append_eq_nil_iff, ite_eq_right_iff, cons_ne_nil, imp_false, mem_citedRows, not_and]
  constructor
  · intro h
    refine ⟨fun candidate hc claim hm => (h candidate hc claim hm).1, ?_, ?_⟩
    · rintro kind row ⟨candidate, hc, claim, hm, rfl, hrow⟩ hkind hrole
      exact ((h candidate hc claim hm).2 row hrow).1 hrole hkind
    · rintro kind row ⟨candidate, hc, claim, hm, rfl, hrow⟩ hkind
      exact (hscope row).mp fun hs => ((h candidate hc claim hm).2 row hrow).2 hs hkind
  · rintro ⟨hroots, hroles, hscopes⟩ candidate hc claim hm
    refine ⟨hroots candidate hc claim hm, fun row hrow => ⟨fun hrole hkind => ?_, fun hs hkind => ?_⟩⟩
    · exact hroles _ row ⟨candidate, hc, claim, hm, rfl, hrow⟩ hkind hrole
    · have hcandidate := hscopes _ row ⟨candidate, hc, claim, hm, rfl, hrow⟩ hkind
      exact (hscope row).mpr hcandidate hs

theorem mem_citedKinds {row : FastTriagePacketRow} (hrow : packet.row row.evidenceId = some row)
    {kind : ClaimKind} :
    kind ∈ citedKinds (citedClaims packet candidates) row ↔ KindCites packet candidates kind row := by
  simp only [citedKinds, mem_map, mem_filter, mem_citedClaims, decide_eq_true_eq]
  constructor
  · rintro ⟨_, ⟨⟨candidate, hc, claim, hm, rfl⟩, other, hother, hid⟩, rfl⟩
    obtain ⟨id, hmem, hget⟩ := mem_citedRows.mp hother
    rw [row_evidenceId hget] at hid
    subst hid
    exact ⟨candidate, hc, claim, hm, rfl, _, hmem, hrow⟩
  · rintro ⟨candidate, hc, claim, hm, rfl, id, hmem, hget⟩
    exact ⟨_, ⟨⟨candidate, hc, claim, hm, rfl⟩, row, mem_citedRows.mpr ⟨id, hmem, hget⟩, rfl⟩, rfl⟩

variable {kinds : List ClaimKind}

theorem contradictory_eq_false :
    contradictory kinds = false ↔
      (∀ kind ∈ kinds, isChainKind kind = true → .competingExplanation ∉ kinds) ∧
        (.initiatingCause ∈ kinds → .symptom ∉ kinds) := by
  unfold contradictory
  simp only [Bool.or_eq_false_iff, Bool.and_eq_false_iff, any_eq_false, decide_eq_false_iff_not,
    Bool.not_eq_true]
  constructor
  · rintro ⟨h1, h2⟩
    refine ⟨fun kind hk hchain => ?_, fun hi => h2.resolve_left (not_not.mpr hi)⟩
    refine h1.resolve_left fun h => ?_
    rw [h kind hk] at hchain
    cases hchain
  · rintro ⟨h1, h2⟩
    refine ⟨?_, or_iff_not_imp_left.mpr fun hi => h2 (not_not.mp hi)⟩
    refine or_iff_not_imp_right.mpr fun hc kind hk => Bool.eq_false_of_not_eq_true fun hchain => ?_
    exact h1 kind hk hchain (not_not.mp hc)

theorem contradictions_eq_false :
    (((citedClaims packet candidates).flatMap CitedClaim.rows).any fun row =>
        contradictory (citedKinds (citedClaims packet candidates) row)) = false ↔
      (∀ kind row, KindCites packet candidates kind row → isChainKind kind = true →
        ¬ KindCites packet candidates .competingExplanation row) ∧
      ∀ row, KindCites packet candidates .initiatingCause row →
        ¬ KindCites packet candidates .symptom row := by
  have hcited : ∀ row, row ∈ (citedClaims packet candidates).flatMap CitedClaim.rows ↔
      ∃ kind, KindCites packet candidates kind row := by
    intro row
    simp only [mem_flatMap, mem_citedClaims]
    constructor
    · rintro ⟨_, ⟨candidate, hc, claim, hm, rfl⟩, hrow⟩
      exact ⟨_, candidate, hc, claim, hm, rfl, mem_citedRows.mp hrow⟩
    · rintro ⟨kind, candidate, hc, claim, hm, -, hrow⟩
      exact ⟨_, ⟨candidate, hc, claim, hm, rfl⟩, mem_citedRows.mpr hrow⟩
  have hget : ∀ kind row, KindCites packet candidates kind row →
      packet.row row.evidenceId = some row := by
    rintro kind row ⟨-, -, claim, -, -, id, -, hget⟩
    rwa [row_evidenceId hget]
  rw [any_eq_false]
  simp only [hcited, Bool.not_eq_true, contradictory_eq_false, forall_exists_index]
  constructor
  · intro h
    constructor
    · intro kind row hk hchain
      have hmem := fun k => @mem_citedKinds packet candidates row (hget kind row hk) k
      rw [← hmem]
      exact (h row kind hk).1 kind ((hmem kind).mpr hk) hchain
    · intro row hi
      have hmem := fun k => @mem_citedKinds packet candidates row (hget _ row hi) k
      rw [← hmem]
      exact (h row _ hi).2 ((hmem _).mpr hi)
  · rintro ⟨hapart, hunmixed⟩ row kind hk
    have hmem := fun k => @mem_citedKinds packet candidates row (hget kind row hk) k
    simp only [hmem]
    exact ⟨fun k hk hchain => hapart k row hk hchain, hunmixed row⟩

variable {candidateId : String}

theorem earliest_eq_some {kind : ClaimKind} {n : UInt64} :
    earliest (citedClaims packet candidates) candidateId kind = some n ↔
      IsLeast (citedOrdinals packet candidates candidateId kind) n := by
  have hmem : ∀ n, n ∈ ((citedClaims packet candidates).filter fun c =>
      c.candidateId = candidateId ∧ c.claim.claimKind = kind).flatMap
        (fun c => c.rows.filterMap FastTriagePacketRow.chronologyOrdinal) ↔
      n ∈ citedOrdinals packet candidates candidateId kind := by
    intro n
    simp only [mem_flatMap, mem_filter, mem_citedClaims, decide_eq_true_eq,
      mem_filterMap, citedOrdinals, Set.mem_ofPred_eq]
    constructor
    · rintro ⟨_, ⟨⟨candidate, hc, claim, hm, rfl⟩, rfl, rfl⟩, row, hrow, hn⟩
      exact ⟨candidate, hc, rfl, claim, hm, rfl, row, mem_citedRows.mp hrow, hn⟩
    · rintro ⟨candidate, hc, rfl, claim, hm, rfl, row, hrow, hn⟩
      exact ⟨_, ⟨⟨candidate, hc, claim, hm, rfl⟩, rfl, rfl⟩, row, mem_citedRows.mpr hrow, hn⟩
  unfold earliest
  rw [min?_eq_some_iff, hmem]
  simp only [hmem]
  rfl

theorem chronologyInverted_eq_false :
    chronologyInverted (citedClaims packet candidates) candidateId = false ↔
      ∀ cause symptom,
        IsLeast (citedOrdinals packet candidates candidateId .initiatingCause) cause →
        IsLeast (citedOrdinals packet candidates candidateId .symptom) symptom →
        cause ≤ symptom := by
  simp only [← earliest_eq_some]
  unfold chronologyInverted
  cases earliest (citedClaims packet candidates) candidateId .initiatingCause with
  | none => simp
  | some cause =>
    cases earliest (citedClaims packet candidates) candidateId .symptom with
    | none => simp
    | some symptom => simp

theorem inversions_eq_false :
    (candidates.any fun candidate =>
        chronologyInverted (citedClaims packet candidates) candidate.candidateId) = false ↔
      ∀ candidateId cause symptom,
        IsLeast (citedOrdinals packet candidates candidateId .initiatingCause) cause →
        IsLeast (citedOrdinals packet candidates candidateId .symptom) symptom →
        cause ≤ symptom := by
  simp only [any_eq_false, Bool.not_eq_true, chronologyInverted_eq_false]
  constructor
  · rintro h candidateId cause symptom hcause hsymptom
    obtain ⟨candidate, hc, rfl, -⟩ := hcause.1
    exact h candidate hc cause symptom hcause hsymptom
  · exact fun h candidate _ => h candidate.candidateId

theorem find?_candidate (hd : (candidates.map InvestigationCandidateV1.candidateId).Nodup)
    {candidate : InvestigationCandidateV1} (hc : candidate ∈ candidates) :
    (candidates.find? fun other => other.candidateId = candidate.candidateId) =
      some candidate := by
  cases hfind : candidates.find? fun other => other.candidateId = candidate.candidateId with
  | none => exact absurd (decide_eq_true rfl) (find?_eq_none.mp hfind candidate hc)
  | some other =>
    have hid : other.candidateId = candidate.candidateId := by simpa using find?_some hfind
    rw [inj_on_of_nodup_map hd (mem_of_find?_eq_some hfind) hc hid]

theorem citedIn_iff (hd : (candidates.map InvestigationCandidateV1.candidateId).Nodup)
    {role : EvidenceRole} :
    citedIn candidates candidateId kinds (rowsOfRole packet role candidateId) = true ↔
      CoversRole packet candidates role kinds candidateId := by
  have hclaim : ∀ claim : InvestigationClaimV1,
      (claim.claimKind ∈ kinds ∧
        ∃ id ∈ claim.evidenceIds, id ∈ rowsOfRole packet role candidateId) ↔
      claim.claimKind ∈ kinds ∧ ∃ row ∈ packet.rows, row.evidenceId ∈ claim.evidenceIds ∧
        row.role = role ∧ row.candidateId = candidateId := by
    intro claim
    simp only [rowsOfRole, mem_map, mem_filter, decide_eq_true_eq]
    refine and_congr_right fun _ => ⟨?_, ?_⟩
    · rintro ⟨_, hid, row, ⟨hrow, hrole, hcandidate⟩, rfl⟩
      exact ⟨row, hrow, hid, hrole, hcandidate⟩
    · rintro ⟨row, hrow, hid, hrole, hcandidate⟩
      exact ⟨_, hid, row, ⟨hrow, hrole, hcandidate⟩, rfl⟩
  unfold citedIn CoversRole
  constructor
  · intro h
    split at h
    · rename_i candidate hfind
      have hid : candidate.candidateId = candidateId := by simpa using find?_some hfind
      simp only [any_eq_true, Bool.and_eq_true, decide_eq_true_eq] at h
      obtain ⟨claim, hm, hkinds⟩ := h
      exact ⟨candidate, mem_of_find?_eq_some hfind, hid, claim, hm, (hclaim claim).mp hkinds⟩
    · cases h
  · rintro ⟨candidate, hc, rfl, claim, hm, hkinds⟩
    rw [find?_candidate hd hc]
    simp only [any_eq_true, Bool.and_eq_true, decide_eq_true_eq]
    exact ⟨claim, hm, (hclaim claim).mpr hkinds⟩

theorem roleCovered_iff (hd : (candidates.map InvestigationCandidateV1.candidateId).Nodup)
    {role : EvidenceRole} :
    roleCovered packet candidates role kinds = true ↔
      ∀ row ∈ packet.rows, row.role = role →
        CoversRole packet candidates role kinds row.candidateId := by
  simp only [roleCovered, all_eq_true, Bool.or_eq_true, decide_eq_true_eq, citedIn_iff hd]
  exact forall₂_congr fun _ _ => by rw [ne_eq, ← imp_iff_not_or]

theorem groundedClaims_iff :
    (packet.rows.all fun row => groundedClaim candidates row.candidateId) = true ↔
      ∀ row ∈ packet.rows, ∃ candidate ∈ candidates, candidate.candidateId = row.candidateId ∧
        ∃ claim ∈ candidate.claims, claim.evidenceIds ≠ [] := by
  simp only [groundedClaim, all_eq_true, any_eq_true, Bool.and_eq_true,
    decide_eq_true_eq]

/-- An answer violates no category exactly when it conforms. -/
theorem contractCategories_eq_nil
    (hd : (candidates.map InvestigationCandidateV1.candidateId).Nodup) :
    contractCategories packet candidates = [] ↔ Conforms packet candidates := by
  have hvocabulary : ∀ found : List FastTriageFailureCategory,
      (FastTriageFailureCategory.vocabulary.filter fun category => category ∈ found) = [] ↔
        found = [] := by
    intro found
    rw [filter_eq_nil_iff, eq_nil_iff_forall_not_mem]
    simp only [decide_eq_true_eq]
    refine ⟨fun h category => h category ?_, fun h category _ => h category⟩
    cases category <;> decide
  unfold contractCategories
  dsimp only
  rw [hvocabulary]
  simp only [append_eq_nil_iff, ite_eq_right_iff, ite_eq_left_iff, cons_ne_nil,
    imp_false, Bool.not_eq_true, not_not, claimCategories_eq_nil,
    contradictions_eq_false, inversions_eq_false, Bool.and_eq_true, roleCovered_iff hd,
    groundedClaims_iff]
  constructor
  · rintro ⟨⟨⟨⟨⟨h1, h2, h3⟩, h4, h5⟩, h6⟩, h7, h8⟩, h9⟩
    exact ⟨h1, h2, h3, h4, h5, h6, h7, h8, h9⟩
  · rintro ⟨h1, h2, h3, h4, h5, h6, h7, h8, h9⟩
    exact ⟨⟨⟨⟨⟨h1, h2, h3⟩, h4, h5⟩, h6⟩, h7, h8⟩, h9⟩

end

end ContextDesk
