import ContextDesk.InvestigationAnswer

/-!
# What an accepted investigation answer says

A proposal is accepted when each of its candidates is (`Accepted`), and the answer is then a function
of the proposal and the ledger (`validateModelAnswer_ok`). `Grounded` is what the host vouches for in
it. Neither depends on the order of candidates, claims or cited ids (`Reordered`).
-/

namespace ContextDesk

open Lib

section

variable (ledger : HostEvidenceLedger)

/-! ## What the pass collects -/

/-- The citations are those of the rows cited so far, in the order of their ids. -/
def Quoted (cited : List String) (citations : List CanonicalCitationV1) : Prop :=
  Keyset.Ascending CanonicalCitationV1.evidenceId citations ∧
    ∀ c, c ∈ citations ↔ ∃ row ∈ rowsOf ledger cited, c = row.citation

variable {ledger}

theorem get_evidenceId {id : String} {row : HostEvidenceEntry} (h : ledger.get id = some row) :
    row ∈ ledger.entries ∧ row.evidenceId = id := by
  have hid := List.find?_some h
  exact ⟨List.mem_of_find?_eq_some h, of_decide_eq_true hid⟩

theorem mem_rowsOf {ids : List String} {row : HostEvidenceEntry} :
    row ∈ rowsOf ledger ids ↔ ∃ id ∈ ids, ledger.get id = some row := List.mem_filterMap

theorem rowsOf_inj {ids ids' : List String} {row row' : HostEvidenceEntry}
    (h : row ∈ rowsOf ledger ids) (h' : row' ∈ rowsOf ledger ids')
    (heq : row.evidenceId = row'.evidenceId) : row = row' := by
  obtain ⟨id, -, hget⟩ := mem_rowsOf.mp h
  obtain ⟨id', -, hget'⟩ := mem_rowsOf.mp h'
  rw [(get_evidenceId hget).2, (get_evidenceId hget').2] at heq
  subst heq
  exact Option.some.inj (hget.symm.trans hget')

theorem ascending_orderedInsert {c : CanonicalCitationV1} {citations : List CanonicalCitationV1}
    (h : Keyset.Ascending CanonicalCitationV1.evidenceId citations)
    (hnew : ∀ d ∈ citations, d.evidenceId ≠ c.evidenceId) :
    Keyset.Ascending CanonicalCitationV1.evidenceId
      (citations.orderedInsert (fun a b => a.evidenceId ≤ b.evidenceId) c) := by
  induction citations with
  | nil => exact List.pairwise_singleton _ _
  | cons d citations ih =>
    obtain ⟨hd, hrest⟩ := List.pairwise_cons.mp h
    obtain ⟨hne, hnew⟩ := List.forall_mem_cons.mp hnew
    rw [List.orderedInsert_cons]
    split
    · rename_i hle
      have hlt : c.evidenceId < d.evidenceId := lt_of_le_of_ne hle hne.symm
      refine List.pairwise_cons.mpr ⟨fun b hb => ?_, h⟩
      rcases List.mem_cons.mp hb with rfl | hb
      · exact hlt
      · exact lt_trans hlt (hd b hb)
    · rename_i hle
      refine List.pairwise_cons.mpr ⟨fun b hb => ?_, ih hrest hnew⟩
      rcases (List.mem_orderedInsert _).mp hb with rfl | hb
      · exact lt_of_not_ge hle
      · exact hd b hb

theorem cite_quoted {cited : List String} {citations : List CanonicalCitationV1} {id : String}
    (h : Quoted ledger cited citations) :
    Quoted ledger (cited ++ [id]) ((rowsOf ledger [id]).foldl cite citations) := by
  obtain ⟨hasc, hmem⟩ := h
  cases hget : ledger.get id with
  | none =>
    have hnone : rowsOf ledger [id] = [] := by simp [rowsOf, hget]
    unfold Quoted
    rw [rowsOf_append, hnone, List.append_nil]
    exact ⟨hasc, hmem⟩
  | some row =>
    have hone : rowsOf ledger [id] = [row] := by simp [rowsOf, hget]
    have hrow : row ∈ rowsOf ledger [id] := by rw [hone]; exact List.mem_singleton_self row
    unfold Quoted
    rw [rowsOf_append, hone, List.foldl_cons, List.foldl_nil]
    simp only [List.mem_append, List.mem_singleton, or_and_right, exists_or, exists_eq_left]
    unfold cite
    by_cases hany : (citations.any fun c => c.evidenceId = row.evidenceId) = true
    · rw [if_pos hany]
      refine ⟨hasc, fun c => ⟨fun hc => .inl ((hmem c).mp hc), ?_⟩⟩
      rintro (hc | rfl)
      · exact (hmem c).mpr hc
      · -- the citation that is there was made from the same row
        obtain ⟨d, hd, hid⟩ := List.any_eq_true.mp hany
        obtain ⟨row', hrow', rfl⟩ := (hmem d).mp hd
        rwa [← rowsOf_inj hrow' hrow (of_decide_eq_true hid)]
    · rw [if_neg hany]
      refine ⟨ascending_orderedInsert hasc fun d hd hid => hany ?_, fun c => ?_⟩
      · exact List.any_eq_true.mpr ⟨d, hd, decide_eq_true hid⟩
      · rw [List.mem_orderedInsert, hmem, or_comm]

theorem foldl_cite_quoted {cited ids : List String} {citations : List CanonicalCitationV1}
    (h : Quoted ledger cited citations) :
    Quoted ledger (cited ++ ids) ((rowsOf ledger ids).foldl cite citations) := by
  have hstep : ∀ cited citations id, Quoted ledger cited citations →
      Quoted ledger (cited ++ [id]) ((rowsOf ledger [id]).foldl cite citations) :=
    fun _ _ _ => cite_quoted
  have hfold := foldl_describes hstep ids h
  rwa [List.flatMap_singleton', foldl_rowsOf] at hfold

/-- The claims of a candidate with their kinds. -/
def ModelCandidateV1.claims (candidate : ModelCandidateV1) : List (ClaimKind × ModelClaimV1) :=
  candidate.sections.flatMap fun s => s.2.map fun claim => (s.1, claim)

def Describes (ledger : HostEvidenceLedger) (claims : List (ClaimKind × ModelClaimV1))
    (pass : Pass) : Prop :=
  Quoted ledger (claims.flatMap fun c => c.2.evidenceIds) pass.citations ∧
    (pass.root = true ↔ ∃ c ∈ claims, causeRoot ledger c.1 c.2 = true)

theorem describes_claim {claims : List (ClaimKind × ModelClaimV1)} {pass : Pass}
    (h : Describes ledger claims pass) (kind : ClaimKind) (claim : ModelClaimV1) :
    Describes ledger (claims ++ [(kind, claim)]) (pass.afterClaim ledger kind claim) := by
  obtain ⟨hquoted, hroot⟩ := h
  constructor
  · rw [List.flatMap_append, List.flatMap_singleton]
    exact foldl_cite_quoted hquoted
  · simp only [Pass.afterClaim, Bool.or_eq_true, hroot, List.mem_append, List.mem_singleton,
      or_and_right, exists_or, exists_eq_left]

theorem describes_section {claims : List (ClaimKind × ModelClaimV1)} {pass : Pass}
    (h : Describes ledger claims pass) (s : ClaimKind × List ModelClaimV1) :
    Describes ledger (claims ++ s.2.map fun claim => (s.1, claim)) (pass.afterSection ledger s) := by
  rw [List.map_eq_flatMap]
  exact foldl_describes (D := Describes ledger)
    (fun _ _ claim h => describes_claim h s.1 claim) s.2 h

theorem describes_candidate {claims : List (ClaimKind × ModelClaimV1)} {pass : Pass}
    (h : Describes ledger claims pass) (candidate : ModelCandidateV1) :
    Describes ledger (claims ++ candidate.claims) (pass.afterCandidate ledger candidate) :=
  foldl_describes (D := Describes ledger) (s := { pass with
    candidateIds := candidate.candidateId :: pass.candidateIds })
    (fun _ _ s h => describes_section h s) candidate.sections h

def ModelInvestigationAnswerV1.pass (ledger : HostEvidenceLedger)
    (proposal : ModelInvestigationAnswerV1) : Pass :=
  proposal.candidates.foldl (Pass.afterCandidate ledger) {}

def ModelInvestigationAnswerV1.claims (proposal : ModelInvestigationAnswerV1) :
    List (ClaimKind × ModelClaimV1) :=
  proposal.candidates.flatMap ModelCandidateV1.claims

theorem describes_pass (ledger : HostEvidenceLedger) (proposal : ModelInvestigationAnswerV1) :
    Describes ledger proposal.claims (proposal.pass ledger) := by
  have hstart : Describes ledger [] {} := by
    refine ⟨⟨List.Pairwise.nil, ?_⟩, ?_⟩
    · simp [rowsOf]
    · simp
  exact foldl_describes (D := Describes ledger) (fun _ _ c h => describes_candidate h c)
    proposal.candidates hstart

/-! ## When a proposal is accepted -/

/-- The ids of the candidates and of the claims. -/
def ModelInvestigationAnswerV1.keys (proposal : ModelInvestigationAnswerV1) : List AnswerKey :=
  proposal.candidates.flatMap fun candidate =>
    .candidate candidate.candidateId :: candidate.claimKeys

def Accepted (ledger : HostEvidenceLedger) (proposal : ModelInvestigationAnswerV1) : Prop :=
  proposal.schema = SCHEMA_V1 ∧ (∀ candidate ∈ proposal.candidates, CandidateOk ledger candidate) ∧
    proposal.keys.Nodup ∧ ∀ id, .candidate id ∈ proposal.keys ↔ id ∈ ledger.candidateIds

def envelope (ledger : HostEvidenceLedger) (proposal : ModelInvestigationAnswerV1) :
    AnswerEnvelopeV1 :=
  { binding := ledger.binding, evidence := ledger.entries,
    answer := { schema := SCHEMA_V1,
                candidates := proposal.candidates.map (grantCandidate ledger),
                canonicalCitations := (proposal.pass ledger).citations,
                rootCauseEstablished := (proposal.pass ledger).root },
    semanticAttempts := 0 }

theorem sameSet_iff {l l' : List String} : sameSet l l' = true ↔ ∀ id, id ∈ l ↔ id ∈ l' := by
  simp only [sameSet, Bool.and_eq_true, List.all_eq_true, decide_eq_true_eq]
  exact ⟨fun h id => ⟨h.1 id, h.2 id⟩, fun h => ⟨fun id => (h id).mp, fun id => (h id).mpr⟩⟩

theorem mem_pass_candidateIds (ledger : HostEvidenceLedger)
    (proposal : ModelInvestigationAnswerV1) (id : String) :
    id ∈ (proposal.pass ledger).candidateIds ↔ .candidate id ∈ proposal.keys := by
  have hseen := (checkCandidate_admits ledger).visit.seen_next {} proposal.candidates
  have hmem : AnswerKey.candidate id ∈ (proposal.pass ledger).seen ↔
      id ∈ (proposal.pass ledger).candidateIds := by
    simp [Pass.seen]
  rw [← hmem]
  exact hseen.mem_iff

theorem validateModelAnswer_ok {fromStr : String → Option ModelInvestigationAnswerV1}
    {raw : String} {env : AnswerEnvelopeV1} (hne : ledger.entries ≠ []) :
    validateModelAnswer fromStr raw ledger = .ok env ↔
      ∃ proposal, fromStr raw = some proposal ∧ Accepted ledger proposal ∧
        env = envelope ledger proposal := by
  have hvisit : ∀ {candidates r}, visit (checkCandidate ledger) {} candidates = .ok r ↔ _ :=
    (checkCandidate_admits ledger).visit.ok_iff (s := {}) List.nodup_nil
  unfold validateModelAnswer parseModelJson
  rw [if_neg hne]
  cases hfrom : fromStr raw with
  | none => simp
  | some proposal =>
    simp only [Option.some.injEq, exists_eq_left', Accepted]
    by_cases hschema : proposal.schema = SCHEMA_V1
    · simp only [hschema, ne_eq, not_true_eq_false, if_false, true_and]
      cases hv : visit (checkCandidate ledger) {} proposal.candidates with
      | error e =>
        refine ⟨fun h => (by cases h), fun h => ?_⟩
        rw [hvisit.mpr ⟨h.1.1, h.1.2.1, rfl⟩] at hv
        cases hv
      | ok r =>
        obtain ⟨hok, hkeys, rfl⟩ := hvisit.mp hv
        have hset : sameSet (proposal.pass ledger).candidateIds ledger.candidateIds = true ↔
            ∀ id, .candidate id ∈ proposal.keys ↔ id ∈ ledger.candidateIds := by
          rw [sameSet_iff]
          exact forall_congr' fun id => by rw [mem_pass_candidateIds]
        rw [← hset]
        unfold ModelInvestigationAnswerV1.pass
        dsimp only
        split
        · rename_i hdiff
          rw [hdiff]
          exact ⟨fun h => (by cases h), fun h => absurd h.1.2.2 Bool.false_ne_true⟩
        · rename_i hsame
          simp only [Except.ok.injEq]
          exact ⟨fun h => ⟨⟨hok, hkeys, Bool.eq_true_of_not_eq_false hsame⟩, h.symm⟩,
            fun h => h.2.symm⟩
    · simp [hschema]

/-! ## What the host vouches for -/

theorem get_iff (hu : UniqueIds ledger.entries) {id : String} {row : HostEvidenceEntry} :
    ledger.get id = some row ↔ row ∈ ledger.entries ∧ row.evidenceId = id := by
  refine ⟨get_evidenceId, ?_⟩
  rintro ⟨hrow, rfl⟩
  cases hget : ledger.get row.evidenceId with
  | none =>
    have hnone := List.find?_eq_none.mp hget row hrow
    exact absurd (decide_eq_true rfl) hnone
  | some row' =>
    obtain ⟨hrow', hid⟩ := get_evidenceId hget
    rw [List.inj_on_of_nodup_map hu hrow' hrow hid]

def AnswerEnvelopeV1.claims (env : AnswerEnvelopeV1) : List InvestigationClaimV1 :=
  env.answer.candidates.flatMap InvestigationCandidateV1.claims

def Cites (ledger : HostEvidenceLedger) (claim : InvestigationClaimV1) (row : HostEvidenceEntry) :
    Prop :=
  row ∈ ledger.entries ∧ row.evidenceId ∈ claim.evidenceIds

structure Grounded (ledger : HostEvidenceLedger) (env : AnswerEnvelopeV1) : Prop where
  host : env.binding = ledger.binding ∧ env.evidence = ledger.entries
  candidates_nodup : (env.answer.candidates.map InvestigationCandidateV1.candidateId).Nodup
  mem_candidates : ∀ id, id ∈ env.answer.candidates.map InvestigationCandidateV1.candidateId ↔
    id ∈ ledger.candidateIds
  claims_nodup : (env.claims.map InvestigationClaimV1.claimId).Nodup
  own_rows : ∀ candidate ∈ env.answer.candidates, ∀ claim ∈ candidate.claims,
    claim.candidateId = candidate.candidateId ∧ ∀ id ∈ claim.evidenceIds,
      ∃ row ∈ ledger.entries, row.evidenceId = id ∧ row.candidateId = candidate.candidateId
  citations_nodup : env.answer.canonicalCitations.Nodup
  mem_citations : ∀ c, c ∈ env.answer.canonicalCitations ↔
    ∃ claim ∈ env.claims, ∃ row, Cites ledger claim row ∧ c = row.citation
  causal_role : ∀ claim ∈ env.claims, claim.claimKind = .causalCandidate →
    ∀ row, Cites ledger claim row → row.role ≠ .symptom
  initiating_status : ∀ claim ∈ env.claims, claim.claimKind = .initiatingCause →
    (claim.status = .supported ↔ ∃ row, Cites ledger claim row ∧ row.role = .cause) ∧
      (claim.status = .withheld ↔ ¬ ∃ row, Cites ledger claim row ∧ row.role = .cause)
  root_iff : env.answer.rootCauseEstablished = true ↔
    ∃ claim ∈ env.claims, claim.claimKind = .initiatingCause ∧ claim.status = .supported

theorem mem_envelope_claims {proposal : ModelInvestigationAnswerV1}
    {claim : InvestigationClaimV1} :
    claim ∈ (envelope ledger proposal).claims ↔ ∃ candidate ∈ proposal.candidates,
      ∃ c ∈ candidate.claims, claim = grantClaim ledger candidate.candidateId c.1 c.2 := by
  simp only [AnswerEnvelopeV1.claims, envelope, List.flatMap_map, List.mem_flatMap, grantCandidate,
    ModelCandidateV1.claims, List.mem_map]
  constructor
  · rintro ⟨candidate, hc, s, hs, m, hm, rfl⟩
    exact ⟨candidate, hc, (s.1, m), ⟨s, hs, m, hm, rfl⟩, rfl⟩
  · rintro ⟨candidate, hc, c, ⟨s, hs, m, hm, rfl⟩, rfl⟩
    exact ⟨candidate, hc, s, hs, m, hm, rfl⟩

theorem claimOk_of_mem {candidate : ModelCandidateV1} (h : CandidateOk ledger candidate)
    {c : ClaimKind × ModelClaimV1} (hc : c ∈ candidate.claims) :
    ClaimOk ledger candidate.candidateId c.1 c.2 := by
  obtain ⟨s, hs, hc⟩ := List.mem_flatMap.mp hc
  obtain ⟨claim, hclaim, rfl⟩ := List.mem_map.mp hc
  exact h.2 s hs claim hclaim

theorem causeRoot_iff (hu : UniqueIds ledger.entries) (candidateId : String) (kind : ClaimKind)
    (claim : ModelClaimV1) :
    causeRoot ledger kind claim = true ↔ kind = .initiatingCause ∧
      ∃ row, Cites ledger (grantClaim ledger candidateId kind claim) row ∧ row.role = .cause := by
  simp only [causeRoot, Bool.and_eq_true, decide_eq_true_eq, List.any_eq_true, Cites, grantClaim]
  refine and_congr_right fun _ => ⟨?_, ?_⟩
  · rintro ⟨id, hid, hrole⟩
    split at hrole
    · rename_i row hget
      obtain ⟨hrow, rfl⟩ := get_evidenceId hget
      exact ⟨row, ⟨hrow, hid⟩, of_decide_eq_true hrole⟩
    · cases hrole
  · rintro ⟨row, ⟨hrow, hid⟩, hrole⟩
    refine ⟨row.evidenceId, hid, ?_⟩
    rw [(get_iff hu).mpr ⟨hrow, rfl⟩]
    exact decide_eq_true hrole

theorem statusOf_initiating {claim : ModelClaimV1} :
    (statusOf ledger .initiatingCause claim = .supported ↔
      causeRoot ledger .initiatingCause claim = true) ∧
    (statusOf ledger .initiatingCause claim = .withheld ↔
      ¬ causeRoot ledger .initiatingCause claim = true) := by
  unfold statusOf
  cases causeRoot ledger .initiatingCause claim <;> decide

def AnswerKey.candidateId? : AnswerKey → Option String
  | .candidate id => some id
  | .claim _ => none

def AnswerKey.claimId? : AnswerKey → Option String
  | .candidate _ => none
  | .claim id => some id

theorem candidateIds_eq (proposal : ModelInvestigationAnswerV1) :
    (envelope ledger proposal).answer.candidates.map InvestigationCandidateV1.candidateId =
      proposal.keys.filterMap AnswerKey.candidateId? := by
  unfold envelope ModelInvestigationAnswerV1.keys
  induction proposal.candidates with
  | nil => rfl
  | cons candidate candidates ih =>
    have hclaims : candidate.claimKeys.filterMap AnswerKey.candidateId? = [] := by
      simp [ModelCandidateV1.claimKeys, AnswerKey.candidateId?, List.filterMap_flatMap]
    rw [List.flatMap_cons, List.filterMap_append,
      List.filterMap_cons_some (by rfl : AnswerKey.candidateId? _ = some candidate.candidateId),
      hclaims, ← ih]
    rfl

theorem claimIds_eq (proposal : ModelInvestigationAnswerV1) :
    (envelope ledger proposal).claims.map InvestigationClaimV1.claimId =
      proposal.keys.filterMap AnswerKey.claimId? := by
  unfold AnswerEnvelopeV1.claims envelope ModelInvestigationAnswerV1.keys
  simp only [List.map_eq_flatMap, List.flatMap_assoc, List.filterMap_flatMap, grantCandidate,
    List.flatMap_cons, List.flatMap_nil, List.append_nil, List.filterMap_cons,
    List.filterMap_nil, AnswerKey.claimId?, ModelCandidateV1.claimKeys, grantClaim]

theorem candidateIds_nodup {proposal : ModelInvestigationAnswerV1} (h : proposal.keys.Nodup) :
    ((envelope ledger proposal).answer.candidates.map
      InvestigationCandidateV1.candidateId).Nodup := by
  rw [candidateIds_eq]
  refine h.filterMap fun a b id ha hb => ?_
  cases a <;> cases b <;> simp_all [AnswerKey.candidateId?]

theorem claimIds_nodup {proposal : ModelInvestigationAnswerV1} (h : proposal.keys.Nodup) :
    ((envelope ledger proposal).claims.map InvestigationClaimV1.claimId).Nodup := by
  rw [claimIds_eq]
  refine h.filterMap fun a b id ha hb => ?_
  cases a <;> cases b <;> simp_all [AnswerKey.claimId?]

theorem envelope_grounded (hu : UniqueIds ledger.entries) {proposal : ModelInvestigationAnswerV1}
    (h : Accepted ledger proposal) : Grounded ledger (envelope ledger proposal) := by
  obtain ⟨-, hok, hkeys, hsame⟩ := h
  obtain ⟨hquoted, hroot⟩ := describes_pass ledger proposal
  have hclaimOk : ∀ candidate ∈ proposal.candidates, ∀ c ∈ candidate.claims,
      ClaimOk ledger candidate.candidateId c.1 c.2 :=
    fun candidate hc c hcm => claimOk_of_mem (hok candidate hc) hcm
  constructor
  case host => exact ⟨rfl, rfl⟩
  case candidates_nodup => exact candidateIds_nodup hkeys
  case mem_candidates =>
    intro id
    rw [candidateIds_eq, ← hsame id, List.mem_filterMap]
    constructor
    · rintro ⟨k, hk, hid⟩
      cases k <;> simp_all [AnswerKey.candidateId?]
    · exact fun hk => ⟨_, hk, rfl⟩
  case claims_nodup => exact claimIds_nodup hkeys
  case own_rows =>
    intro granted hgranted claim hclaim
    obtain ⟨candidate, hc, rfl⟩ := List.mem_map.mp hgranted
    obtain ⟨s, hs, hclaim⟩ := List.mem_flatMap.mp hclaim
    obtain ⟨m, hm, rfl⟩ := List.mem_map.mp hclaim
    refine ⟨rfl, fun id hid => ?_⟩
    obtain ⟨-, -, -, hrows⟩ := (hok candidate hc).2 s hs m hm
    obtain ⟨row, hget, -, hown, -⟩ := hrows id hid
    obtain ⟨hrow, hrid⟩ := get_evidenceId hget
    exact ⟨row, hrow, hrid, hown⟩
  case citations_nodup => exact hquoted.1.nodup
  case mem_citations =>
    intro c
    refine (hquoted.2 c).trans ?_
    constructor
    · rintro ⟨row, hrow, rfl⟩
      obtain ⟨id, hid, hget⟩ := mem_rowsOf.mp hrow
      obtain ⟨hrow, rfl⟩ := get_evidenceId hget
      obtain ⟨m, hm, hid⟩ := List.mem_flatMap.mp hid
      obtain ⟨candidate, hc, hm⟩ := List.mem_flatMap.mp hm
      exact ⟨_, mem_envelope_claims.mpr ⟨candidate, hc, m, hm, rfl⟩, row, ⟨hrow, hid⟩, rfl⟩
    · rintro ⟨claim, hclaim, row, ⟨hrow, hid⟩, rfl⟩
      obtain ⟨candidate, hc, m, hm, rfl⟩ := mem_envelope_claims.mp hclaim
      refine ⟨row, mem_rowsOf.mpr ⟨row.evidenceId, ?_, (get_iff hu).mpr ⟨hrow, rfl⟩⟩, rfl⟩
      exact List.mem_flatMap.mpr ⟨m, List.mem_flatMap.mpr ⟨candidate, hc, hm⟩, hid⟩
  case causal_role =>
    rintro claim hclaim hkind row ⟨hrow, hid⟩ hrole
    obtain ⟨candidate, hc, m, hm, rfl⟩ := mem_envelope_claims.mp hclaim
    obtain ⟨row', hget, hcausal, -⟩ := (hclaimOk candidate hc m hm).2.2.2 _ hid
    rw [(get_iff hu).mpr ⟨hrow, rfl⟩, Option.some.injEq] at hget
    subst hget
    exact hcausal ⟨hkind, hrole⟩
  case initiating_status =>
    intro claim hclaim hkind
    obtain ⟨candidate, hc, ⟨kind, m⟩, hm, rfl⟩ := mem_envelope_claims.mp hclaim
    obtain rfl : kind = .initiatingCause := hkind
    have hcause := causeRoot_iff hu candidate.candidateId .initiatingCause m
    rw [eq_self, true_and] at hcause
    exact ⟨statusOf_initiating.1.trans hcause, statusOf_initiating.2.trans (not_congr hcause)⟩
  case root_iff =>
    refine hroot.trans ?_
    constructor
    · rintro ⟨⟨kind, m⟩, hm, hcause⟩
      obtain ⟨candidate, hc, hm⟩ := List.mem_flatMap.mp hm
      obtain rfl : kind = .initiatingCause := by
        simp only [causeRoot, Bool.and_eq_true, decide_eq_true_eq] at hcause
        exact hcause.1
      exact ⟨_, mem_envelope_claims.mpr ⟨candidate, hc, _, hm, rfl⟩, rfl,
        statusOf_initiating.1.mpr hcause⟩
    · rintro ⟨claim, hclaim, hkind, hstatus⟩
      obtain ⟨candidate, hc, ⟨kind, m⟩, hm, rfl⟩ := mem_envelope_claims.mp hclaim
      obtain rfl : kind = .initiatingCause := hkind
      exact ⟨_, List.mem_flatMap.mpr ⟨candidate, hc, hm⟩, statusOf_initiating.1.mp hstatus⟩

/-! ## The order does not matter -/

structure ClaimReordered (a b : ModelClaimV1) : Prop where
  claimId : a.claimId = b.claimId
  text : a.text = b.text
  evidenceIds : a.evidenceIds.Perm b.evidenceIds

structure CandidateReordered (a b : ModelCandidateV1) : Prop where
  candidateId : a.candidateId = b.candidateId
  sections : List.Forall₂ (fun s t => s.1 = t.1 ∧ Shuffled ClaimReordered s.2 t.2)
    a.sections b.sections

/-- The proposals differ in the order of candidates, of the claims in a section and of the ids in a
claim. -/
structure Reordered (p q : ModelInvestigationAnswerV1) : Prop where
  schema : p.schema = q.schema
  candidates : Shuffled CandidateReordered p.candidates q.candidates

theorem CandidateReordered.shuffled {a b : ModelCandidateV1} (h : CandidateReordered a b) :
    Shuffled (fun s t => s.1 = t.1 ∧ Shuffled ClaimReordered s.2 t.2) a.sections b.sections :=
  ⟨a.sections, .refl _, h.sections⟩

theorem ClaimReordered.claimOk_iff {a b : ModelClaimV1} (h : ClaimReordered a b)
    (candidateId : String) (kind : ClaimKind) :
    ClaimOk ledger candidateId kind a ↔ ClaimOk ledger candidateId kind b := by
  have hnil : a.evidenceIds = [] ↔ b.evidenceIds = [] :=
    ⟨fun ha => (ha ▸ h.evidenceIds).nil_eq.symm, fun hb => (hb ▸ h.evidenceIds).eq_nil⟩
  unfold ClaimOk
  rw [h.claimId, hnil, h.evidenceIds.nodup_iff]
  simp only [h.evidenceIds.mem_iff]

theorem ClaimReordered.causeRoot_eq {a b : ModelClaimV1} (h : ClaimReordered a b)
    (kind : ClaimKind) : causeRoot ledger kind a = causeRoot ledger kind b := by
  unfold causeRoot
  rw [h.evidenceIds.any_eq]

theorem CandidateReordered.candidateOk_iff (ledger : HostEvidenceLedger)
    {a b : ModelCandidateV1} (h : CandidateReordered a b) :
    CandidateOk ledger a ↔ CandidateOk ledger b := by
  unfold CandidateOk
  rw [h.candidateId]
  refine and_congr_right fun _ => h.shuffled.forall_iff fun s t hst => ?_
  refine hst.2.forall_iff fun c d hcd => ?_
  rw [hst.1]
  exact hcd.claimOk_iff _ _

theorem CandidateReordered.keys_perm {a b : ModelCandidateV1} (h : CandidateReordered a b) :
    (AnswerKey.candidate a.candidateId :: a.claimKeys).Perm
      (.candidate b.candidateId :: b.claimKeys) := by
  rw [h.candidateId, List.perm_cons]
  refine h.shuffled.flatMap_perm fun s t hst => hst.2.flatMap_perm fun c d hcd => ?_
  rw [hcd.claimId]

theorem CandidateReordered.claims {a b : ModelCandidateV1} (h : CandidateReordered a b) :
    Shuffled (fun c d => c.1 = d.1 ∧ ClaimReordered c.2 d.2) a.claims b.claims :=
  h.shuffled.flatMap fun _ _ hst => hst.2.map fun _ _ hcd => ⟨hst.1, hcd⟩

section

variable {p q : ModelInvestigationAnswerV1} (h : Reordered p q)

include h

theorem Reordered.accepted_iff : Accepted ledger p ↔ Accepted ledger q := by
  have hkeys : p.keys.Perm q.keys := h.candidates.flatMap_perm fun _ _ hab => hab.keys_perm
  unfold Accepted
  rw [h.schema, hkeys.nodup_iff,
    h.candidates.forall_iff fun _ _ hab => hab.candidateOk_iff ledger]
  simp only [hkeys.mem_iff]

theorem Reordered.claims :
    Shuffled (fun c d => c.1 = d.1 ∧ ClaimReordered c.2 d.2) p.claims q.claims :=
  h.candidates.flatMap fun _ _ hab => hab.claims

theorem Reordered.citations_eq :
    (p.pass ledger).citations = (q.pass ledger).citations := by
  have hcited : (p.claims.flatMap fun c => c.2.evidenceIds).Perm
      (q.claims.flatMap fun c => c.2.evidenceIds) :=
    h.claims.flatMap_perm fun _ _ hcd => hcd.2.evidenceIds
  obtain ⟨hp, hpmem⟩ := (describes_pass ledger p).1
  obtain ⟨hq, hqmem⟩ := (describes_pass ledger q).1
  refine hp.eq_of_mem hq fun c => ?_
  rw [hpmem, hqmem]
  simp only [mem_rowsOf, hcited.mem_iff]

theorem Reordered.root_eq : (p.pass ledger).root = (q.pass ledger).root := by
  rw [Bool.eq_iff_iff, (describes_pass ledger p).2, (describes_pass ledger q).2]
  refine h.claims.exists_iff fun c d hcd => ?_
  rw [hcd.1, hcd.2.causeRoot_eq]

end

/-- What is said of a claim apart from its text. -/
def InvestigationClaimV1.verdict (claim : InvestigationClaimV1) :
    String × String × ClaimKind × ClaimStatus :=
  (claim.candidateId, claim.claimId, claim.claimKind, claim.status)

theorem Reordered.verdicts_perm {p q : ModelInvestigationAnswerV1} (h : Reordered p q) :
    ((envelope ledger p).claims.map InvestigationClaimV1.verdict).Perm
      ((envelope ledger q).claims.map InvestigationClaimV1.verdict) := by
  have hverdicts : ∀ r : ModelInvestigationAnswerV1,
      (envelope ledger r).claims.map InvestigationClaimV1.verdict =
        r.candidates.flatMap fun candidate => candidate.claims.map fun c =>
          (candidate.candidateId, c.2.claimId, c.1, statusOf ledger c.1 c.2) := by
    intro r
    simp only [AnswerEnvelopeV1.claims, envelope, List.map_eq_flatMap, List.flatMap_assoc,
      grantCandidate, ModelCandidateV1.claims, List.flatMap_cons, List.flatMap_nil,
      List.append_nil, grantClaim, InvestigationClaimV1.verdict]
  rw [hverdicts, hverdicts]
  refine h.candidates.flatMap_perm fun a b hab => ?_
  simp only [List.map_eq_flatMap]
  refine hab.claims.flatMap_perm fun c d hcd => ?_
  unfold statusOf
  rw [hab.candidateId, hcd.1, hcd.2.claimId, hcd.2.causeRoot_eq]

/-- The host vouches for what it accepts, and reordering a proposal changes neither whether it is
accepted nor the citations, the statuses and the root flag. -/
theorem validateModelAnswer_grounded {sha256Hex : List UInt8 → String} {binding : AnswerBindingV1}
    {evidence : List HostEvidenceEntry}
    (hnew : HostEvidenceLedger.new sha256Hex binding evidence = .ok ledger)
    (fromStr : String → Option ModelInvestigationAnswerV1) :
    (∀ raw env, validateModelAnswer fromStr raw ledger = .ok env → Grounded ledger env) ∧
    ∀ raw raw' p q, fromStr raw = some p → fromStr raw' = some q → Reordered p q →
      ((∃ env, validateModelAnswer fromStr raw ledger = .ok env) ↔
        ∃ env, validateModelAnswer fromStr raw' ledger = .ok env) ∧
      ∀ env env', validateModelAnswer fromStr raw ledger = .ok env →
        validateModelAnswer fromStr raw' ledger = .ok env' →
          env.answer.canonicalCitations = env'.answer.canonicalCitations ∧
          (env.claims.map InvestigationClaimV1.verdict).Perm
            (env'.claims.map InvestigationClaimV1.verdict) ∧
          env.answer.rootCauseEstablished = env'.answer.rootCauseEstablished := by
  obtain ⟨-, hu, hne⟩ := new_entries hnew
  refine ⟨fun raw env hok => ?_, fun raw raw' p q hp hq h => ⟨?_, fun env env' hok hok' => ?_⟩⟩
  · obtain ⟨p, -, haccepted, rfl⟩ := (validateModelAnswer_ok hne).mp hok
    exact envelope_grounded hu haccepted
  · simp only [validateModelAnswer_ok hne, hp, hq, Option.some.injEq, exists_eq_left',
      exists_and_left, exists_eq, and_true]
    exact h.accepted_iff
  · obtain ⟨p', hp', -, rfl⟩ := (validateModelAnswer_ok hne).mp hok
    obtain ⟨q', hq', -, rfl⟩ := (validateModelAnswer_ok hne).mp hok'
    obtain rfl := Option.some.inj (hp.symm.trans hp')
    obtain rfl := Option.some.inj (hq.symm.trans hq')
    exact ⟨h.citations_eq, h.verdicts_perm, h.root_eq⟩

end

/-! ## An accepted answer -/

def causeRow : HostEvidenceEntry :=
  ⟨"e1", "c1", "app.log", "L1", "corpus", ⟨1, 1, 1⟩, .cause, "disk full"⟩

def causeBinding : AnswerBindingV1 :=
  ⟨"session", "turn", "corpus", ⟨1, 1, 1⟩, HostEvidenceLedger.digest spell [causeRow]⟩

def rawCause : String :=
  "\x7b\"schema\":\"contextdesk.investigation_answer.v1\",\"candidates\":[\x7b\"candidate_id\":" ++
  "\"c1\",\"initiating_causes\":[\x7b\"claim_id\":\"k1\",\"text\":\"The disk was full.\"," ++
  "\"evidence_ids\":[\"e1\"]\x7d]\x7d]\x7d"

def causeProposal : ModelInvestigationAnswerV1 :=
  { schema := SCHEMA_V1,
    candidates := [{ candidateId := "c1",
                     initiatingCauses := [⟨"k1", "The disk was full.", ["e1"]⟩] }] }

/-- The reader on `rawCause`. -/
def readCause (raw : String) : Option ModelInvestigationAnswerV1 :=
  if raw = rawCause then some causeProposal else none

theorem cause_accepted : validateModelAnswer readCause rawCause ⟨causeBinding, [causeRow]⟩ =
    .ok (envelope ⟨causeBinding, [causeRow]⟩ causeProposal) := by decide +kernel

theorem validateModelAnswer_grounded_cause :
    ∃ ledger env, HostEvidenceLedger.new spell causeBinding [causeRow] = .ok ledger ∧
      validateModelAnswer readCause rawCause ledger = .ok env ∧ Grounded ledger env ∧
      env.answer.rootCauseEstablished = true := by
  have hnew : HostEvidenceLedger.new spell causeBinding [causeRow] =
      .ok ⟨causeBinding, [causeRow]⟩ := by rfl
  exact ⟨_, _, hnew, cause_accepted,
    (validateModelAnswer_grounded hnew readCause).1 _ _ cause_accepted, by rfl⟩

end ContextDesk
