import ContextDesk.EvidenceLedger
import ContextDesk.Lib.Visit

/-!
# Investigation answers

`validateModelAnswer` checks a model's proposal against the host's evidence ledger in one pass over
candidates, sections, claims and cited ids, and derives what the answer may say: the citations, the
status of each claim and whether a root cause is established. `fromStr` is the JSON reader for the
shape of a proposal.
-/

namespace ContextDesk

open Lib List

inductive ClaimKind where
  | observation
  | symptom
  | causalCandidate
  | initiatingCause
  | competingExplanation
  | missingEvidence
  deriving DecidableEq

inductive ClaimStatus where
  | supported
  | unsupported
  | withheld
  deriving DecidableEq

structure ModelClaimV1 where
  claimId : String
  text : String
  evidenceIds : List String
  deriving DecidableEq

structure ModelCandidateV1 where
  candidateId : String
  observations : List ModelClaimV1 := []
  symptoms : List ModelClaimV1 := []
  causalCandidates : List ModelClaimV1 := []
  initiatingCauses : List ModelClaimV1 := []
  competingExplanations : List ModelClaimV1 := []
  missingEvidence : List ModelClaimV1 := []
  deriving DecidableEq

structure ModelInvestigationAnswerV1 where
  schema : String
  candidates : List ModelCandidateV1
  deriving DecidableEq

structure InvestigationClaimV1 where
  claimId : String
  claimKind : ClaimKind
  text : String
  candidateId : String
  evidenceIds : List String
  status : ClaimStatus
  deriving DecidableEq

structure InvestigationCandidateV1 where
  candidateId : String
  claims : List InvestigationClaimV1
  deriving DecidableEq

structure CanonicalCitationV1 where
  evidenceId : String
  candidateId : String
  sourceLabel : String
  locator : String
  corpusId : String
  revision : LogSnapshotRevisionV1
  content : String
  deriving DecidableEq

structure InvestigationAnswerV1 where
  schema : String
  candidates : List InvestigationCandidateV1
  canonicalCitations : List CanonicalCitationV1
  rootCauseEstablished : Bool
  deriving DecidableEq

structure AnswerEnvelopeV1 where
  binding : AnswerBindingV1
  evidence : List HostEvidenceEntry
  answer : InvestigationAnswerV1
  semanticAttempts : UInt8
  deriving DecidableEq

def SCHEMA_V1 : String := "contextdesk.investigation_answer.v1"

/-- The section of the proposal fixes the kind of the claim. -/
def ModelCandidateV1.sections (candidate : ModelCandidateV1) :
    List (ClaimKind × List ModelClaimV1) :=
  [(.observation, candidate.observations), (.symptom, candidate.symptoms),
    (.causalCandidate, candidate.causalCandidates),
    (.initiatingCause, candidate.initiatingCauses),
    (.competingExplanation, candidate.competingExplanations),
    (.missingEvidence, candidate.missingEvidence)]

def HostEvidenceLedger.get (ledger : HostEvidenceLedger) (evidenceId : String) :
    Option HostEvidenceEntry :=
  ledger.entries.find? fun entry => entry.evidenceId = evidenceId

def HostEvidenceLedger.candidateIds (ledger : HostEvidenceLedger) : List String :=
  ledger.entries.map HostEvidenceEntry.candidateId

def HostEvidenceEntry.citation (entry : HostEvidenceEntry) : CanonicalCitationV1 :=
  { evidenceId := entry.evidenceId, candidateId := entry.candidateId,
    sourceLabel := entry.sourceLabel, locator := entry.locator, corpusId := entry.corpusId,
    revision := entry.revision, content := entry.content }

/-- `entry` and `or_insert_with` on the map of the citations, as the list of its values. -/
def cite (citations : List CanonicalCitationV1) (entry : HostEvidenceEntry) :
    List CanonicalCitationV1 :=
  if citations.any fun c => c.evidenceId = entry.evidenceId then citations
  else citations.orderedInsert (fun a b => a.evidenceId ≤ b.evidenceId) entry.citation

/-- What the pass has collected: three sets and a flag. -/
structure Pass where
  candidateIds : List String := []
  claimIds : List String := []
  citations : List CanonicalCitationV1 := []
  root : Bool := false
  deriving DecidableEq

section

variable (ledger : HostEvidenceLedger)

/-- One id of a claim, with the ids of the claim before it. -/
def checkId (kind : ClaimKind) (candidateId : String) (s : List String × List CanonicalCitationV1)
    (id : String) : Except ValidationError (Unit × List String × List CanonicalCitationV1) :=
  if id ∈ s.1 then .error .duplicateId
  else
    match ledger.get id with
    | none => .error .unknownEvidence
    | some entry =>
      if kind = .causalCandidate ∧ entry.role = .symptom then .error .roleMismatch
      else if entry.candidateId ≠ candidateId then .error .wrongScope
      else if entry.corpusId ≠ ledger.binding.corpusId ∨
          entry.revision ≠ ledger.binding.revision then .error .wrongRevision
      else .ok ((), id :: s.1, cite s.2 entry)

/-- `cause_root`: an initiating cause with evidence that the host has classified as a cause. -/
def causeRoot (kind : ClaimKind) (claim : ModelClaimV1) : Bool :=
  kind = .initiatingCause && claim.evidenceIds.any fun id =>
    match ledger.get id with
    | some entry => entry.role = .cause
    | none => false

def statusOf (kind : ClaimKind) (claim : ModelClaimV1) : ClaimStatus :=
  if kind = .initiatingCause ∧ causeRoot ledger kind claim = false then .withheld else .supported

def checkClaim (candidateId : String) (kind : ClaimKind) (pass : Pass) (claim : ModelClaimV1) :
    Except ValidationError (InvestigationClaimV1 × Pass) :=
  if claim.claimId = "" ∨ claim.claimId ∈ pass.claimIds then .error .duplicateId
  else if claim.evidenceIds = [] ∧ kind ≠ .missingEvidence then .error .emptyEvidence
  else
    match visit (checkId ledger kind candidateId) ([], pass.citations) claim.evidenceIds with
    | .error e => .error e
    | .ok (_, _, citations) =>
      .ok ({ claimId := claim.claimId, claimKind := kind, text := claim.text,
             candidateId := candidateId, evidenceIds := claim.evidenceIds,
             status := statusOf ledger kind claim },
           { pass with claimIds := claim.claimId :: pass.claimIds, citations := citations,
                       root := pass.root || causeRoot ledger kind claim })

def checkSection (candidateId : String) (pass : Pass) (s : ClaimKind × List ModelClaimV1) :
    Except ValidationError (List InvestigationClaimV1 × Pass) :=
  visit (checkClaim ledger candidateId s.1) pass s.2

def checkCandidate (pass : Pass) (candidate : ModelCandidateV1) :
    Except ValidationError (InvestigationCandidateV1 × Pass) :=
  if candidate.candidateId = "" ∨ candidate.candidateId ∈ pass.candidateIds then
    .error .duplicateId
  else
    match visit (checkSection ledger candidate.candidateId)
        { pass with candidateIds := candidate.candidateId :: pass.candidateIds }
        candidate.sections with
    | .error e => .error e
    | .ok (claims, pass) =>
      .ok ({ candidateId := candidate.candidateId, claims := claims.flatten }, pass)

end

def parseModelJson (fromStr : String → Option ModelInvestigationAnswerV1) (raw : String) :
    Except ValidationError ModelInvestigationAnswerV1 :=
  match fromStr raw with
  | none => .error .parse
  | some value => if value.schema ≠ SCHEMA_V1 then .error .schema else .ok value

/-- `BTreeSet` equality of two lists of ids. -/
def sameSet (l l' : List String) : Bool := l.all (· ∈ l') && l'.all (· ∈ l)

def validateModelAnswer (fromStr : String → Option ModelInvestigationAnswerV1) (raw : String)
    (ledger : HostEvidenceLedger) : Except ValidationError AnswerEnvelopeV1 :=
  if ledger.entries = [] then .error .emptyLedger
  else
    match parseModelJson fromStr raw with
    | .error e => .error e
    | .ok proposal =>
      match visit (checkCandidate ledger) {} proposal.candidates with
      | .error e => .error e
      | .ok (candidates, pass) =>
        if sameSet pass.candidateIds ledger.candidateIds = false then .error .wrongScope
        else .ok { binding := ledger.binding, evidence := ledger.entries,
                   answer := { schema := SCHEMA_V1, candidates := candidates,
                               canonicalCitations := pass.citations,
                               rootCauseEstablished := pass.root },
                   semanticAttempts := 0 }

/-! ## What each step of the pass accepts -/

/-- What the keys of the pass are: an id of a candidate or of a claim. -/
inductive AnswerKey where
  | candidate (id : String)
  | claim (id : String)
  deriving DecidableEq

def Pass.seen (pass : Pass) : List AnswerKey :=
  pass.candidateIds.map .candidate ++ pass.claimIds.map .claim

section

variable (ledger : HostEvidenceLedger)

def Citable (kind : ClaimKind) (candidateId : String) (row : HostEvidenceEntry) : Prop :=
  ¬ (kind = .causalCandidate ∧ row.role = .symptom) ∧ row.candidateId = candidateId ∧
    row.corpusId = ledger.binding.corpusId ∧ row.revision = ledger.binding.revision

def ClaimOk (candidateId : String) (kind : ClaimKind) (claim : ModelClaimV1) : Prop :=
  claim.claimId ≠ "" ∧ (claim.evidenceIds = [] → kind = .missingEvidence) ∧
    claim.evidenceIds.Nodup ∧
    ∀ id ∈ claim.evidenceIds, ∃ row, ledger.get id = some row ∧ Citable ledger kind candidateId row

def CandidateOk (candidate : ModelCandidateV1) : Prop :=
  candidate.candidateId ≠ "" ∧ ∀ s ∈ candidate.sections, ∀ claim ∈ s.2,
    ClaimOk ledger candidate.candidateId s.1 claim

def rowsOf (ids : List String) : List HostEvidenceEntry := ids.filterMap ledger.get

def grantClaim (candidateId : String) (kind : ClaimKind) (claim : ModelClaimV1) :
    InvestigationClaimV1 :=
  { claimId := claim.claimId, claimKind := kind, text := claim.text, candidateId := candidateId,
    evidenceIds := claim.evidenceIds, status := statusOf ledger kind claim }

def grantCandidate (candidate : ModelCandidateV1) : InvestigationCandidateV1 :=
  { candidateId := candidate.candidateId,
    claims := candidate.sections.flatMap fun s =>
      s.2.map (grantClaim ledger candidate.candidateId s.1) }

def Pass.afterClaim (kind : ClaimKind) (pass : Pass) (claim : ModelClaimV1) : Pass :=
  { pass with claimIds := claim.claimId :: pass.claimIds,
              citations := (rowsOf ledger claim.evidenceIds).foldl cite pass.citations,
              root := pass.root || causeRoot ledger kind claim }

def Pass.afterSection (pass : Pass) (s : ClaimKind × List ModelClaimV1) : Pass :=
  s.2.foldl (Pass.afterClaim ledger s.1) pass

def Pass.afterCandidate (pass : Pass) (candidate : ModelCandidateV1) : Pass :=
  candidate.sections.foldl (Pass.afterSection ledger)
    { pass with candidateIds := candidate.candidateId :: pass.candidateIds }

theorem checkId_admits (kind : ClaimKind) (candidateId : String) :
    Admits (checkId ledger kind candidateId) Prod.fst
      (fun id => ∃ row, ledger.get id = some row ∧ Citable ledger kind candidateId row)
      (fun id => [id]) (fun _ => ())
      (fun s id => (id :: s.1, (rowsOf ledger [id]).foldl cite s.2)) where
  ok_iff := by
    rintro ⟨ids, citations⟩ id r hs
    have hfresh : (ids ++ [id]).Nodup ↔ id ∉ ids := by
      rw [nodup_append_comm, singleton_append, nodup_cons]
      exact and_iff_left hs
    simp only [hfresh]
    unfold checkId
    by_cases hid : id ∈ ids
    · rw [if_pos hid]
      exact ⟨fun h => (by cases h), fun h => absurd hid h.2.1⟩
    · rw [if_neg hid]
      cases hrow : ledger.get id with
      | none =>
        simp only [reduceCtorEq, false_and, exists_false]
      | some row =>
        have hrows : rowsOf ledger [id] = [row] := by simp [rowsOf, hrow]
        simp only [Option.some.injEq, exists_eq_left', hrows, foldl_cons, foldl_nil,
          hid, not_false_eq_true, true_and, Citable]
        split
        · rename_i h1
          simp [h1]
        · rename_i h1
          split
          · rename_i h2
            simp [h2]
          · rename_i h2
            split
            · rename_i h3
              simp only [reduceCtorEq, false_iff]
              rintro ⟨⟨-, -, hc, hv⟩, -⟩
              rcases h3 with h3 | h3
              · exact h3 hc
              · exact h3 hv
            · rename_i h3
              push Not at h2 h3
              simp only [Except.ok.injEq, h1, h2, h3, not_false_eq_true, and_self, true_and]
              exact eq_comm
  seen_next := by
    rintro ⟨ids, citations⟩ id
    exact (perm_append_singleton id ids).symm

theorem rowsOf_append (ids ids' : List String) :
    rowsOf ledger (ids ++ ids') = rowsOf ledger ids ++ rowsOf ledger ids' :=
  filterMap_append

theorem foldl_rowsOf (ids : List String) (citations : List CanonicalCitationV1) :
    ids.foldl (fun citations id => (rowsOf ledger [id]).foldl cite citations) citations =
      (rowsOf ledger ids).foldl cite citations := by
  induction ids generalizing citations with
  | nil => rfl
  | cons id ids ih =>
    rw [foldl_cons, ih, ← foldl_append, ← rowsOf_append, singleton_append]

theorem foldl_ids (ids : List String) (s : List String × List CanonicalCitationV1) :
    (ids.foldl (fun s id => (id :: s.1, (rowsOf ledger [id]).foldl cite s.2)) s).2 =
      (rowsOf ledger ids).foldl cite s.2 := by
  rw [← foldl_rowsOf]
  exact (foldl_hom Prod.snd fun _ _ => rfl).symm

theorem Pass.nodup_claim {pass : Pass} (hs : pass.seen.Nodup) (id : String) :
    (pass.seen ++ [AnswerKey.claim id]).Nodup ↔ id ∉ pass.claimIds := by
  rw [nodup_append_comm, singleton_append, nodup_cons]
  simp [Pass.seen] at hs ⊢
  exact fun _ => hs

theorem Pass.nodup_candidate {pass : Pass} (hs : pass.seen.Nodup) (id : String) :
    (pass.seen ++ [AnswerKey.candidate id]).Nodup ↔ id ∉ pass.candidateIds := by
  rw [nodup_append_comm, singleton_append, nodup_cons]
  simp [Pass.seen] at hs ⊢
  exact fun _ => hs

theorem checkClaim_admits (candidateId : String) (kind : ClaimKind) :
    Admits (checkClaim ledger candidateId kind) Pass.seen (ClaimOk ledger candidateId kind)
      (fun claim => [.claim claim.claimId]) (grantClaim ledger candidateId kind)
      (Pass.afterClaim ledger kind) where
  ok_iff := by
    intro pass claim r hs
    rw [Pass.nodup_claim hs]
    have hids : ∀ {r}, visit (checkId ledger kind candidateId) ([], pass.citations)
        claim.evidenceIds = .ok r ↔ _ :=
      (checkId_admits ledger kind candidateId).visit.ok_iff nodup_nil
    simp only [nil_append, flatMap_singleton'] at hids
    unfold checkClaim ClaimOk
    by_cases h1 : claim.claimId = "" ∨ claim.claimId ∈ pass.claimIds
    · rw [if_pos h1]
      refine ⟨fun h => (by cases h), fun h => ?_⟩
      rcases h1 with h1 | h1
      · exact absurd h1 h.1.1
      · exact absurd h1 h.2.1
    · rw [if_neg h1]
      push Not at h1
      by_cases h2 : claim.evidenceIds = [] ∧ kind ≠ .missingEvidence
      · rw [if_pos h2]
        exact ⟨fun h => (by cases h), fun h => absurd (h.1.2.1 h2.1) h2.2⟩
      · rw [if_neg h2]
        push Not at h2
        cases hv : visit (checkId ledger kind candidateId) ([], pass.citations)
            claim.evidenceIds with
        | error e =>
          refine ⟨fun h => (by cases h), fun h => ?_⟩
          rw [hids.mpr ⟨h.1.2.2.2, h.1.2.2.1, rfl⟩] at hv
          cases hv
        | ok r' =>
          obtain ⟨hrows, hnodup, hr'⟩ := hids.mp hv
          obtain ⟨u, ids, citations⟩ := r'
          have hcite : citations = (rowsOf ledger claim.evidenceIds).foldl cite pass.citations := by
            have h := congrArg (fun r => r.2.2) hr'
            exact h.trans (foldl_ids ledger claim.evidenceIds ([], pass.citations))
          have hall : (claim.claimId ≠ "" ∧ (claim.evidenceIds = [] → kind = .missingEvidence) ∧
              claim.evidenceIds.Nodup ∧ ∀ id ∈ claim.evidenceIds, ∃ row,
                ledger.get id = some row ∧ Citable ledger kind candidateId row) ∧
              claim.claimId ∉ pass.claimIds := ⟨⟨h1.1, h2, hnodup, hrows⟩, h1.2⟩
          simp only [hcite, Except.ok.injEq]
          exact ⟨fun h => ⟨hall.1, hall.2, h.symm⟩, fun h => h.2.2.symm⟩
  seen_next := by
    intro pass claim
    exact perm_middle.trans (perm_append_singleton _ _).symm

theorem checkSection_admits (candidateId : String) :
    Admits (checkSection ledger candidateId) Pass.seen
      (fun s => ∀ claim ∈ s.2, ClaimOk ledger candidateId s.1 claim)
      (fun s => s.2.flatMap fun claim => [.claim claim.claimId])
      (fun s => s.2.map (grantClaim ledger candidateId s.1)) (Pass.afterSection ledger) where
  ok_iff := fun {_ s _} hs => (checkClaim_admits ledger candidateId s.1).visit.ok_iff hs
  seen_next := fun pass s => (checkClaim_admits ledger candidateId s.1).visit.seen_next pass s.2

/-- The ids of the claims of a candidate, in the order of the sections. -/
def ModelCandidateV1.claimKeys (candidate : ModelCandidateV1) : List AnswerKey :=
  candidate.sections.flatMap fun s => s.2.flatMap fun claim => [.claim claim.claimId]

theorem checkCandidate_admits :
    Admits (checkCandidate ledger) Pass.seen (CandidateOk ledger)
      (fun candidate => .candidate candidate.candidateId :: candidate.claimKeys)
      (grantCandidate ledger) (Pass.afterCandidate ledger) where
  ok_iff := by
    intro pass candidate r hs
    have hadd : (Pass.seen { pass with
        candidateIds := candidate.candidateId :: pass.candidateIds }).Perm
        (pass.seen ++ [.candidate candidate.candidateId]) :=
      (perm_append_singleton _ _).symm
    have hkeys : (pass.seen ++ .candidate candidate.candidateId :: candidate.claimKeys).Nodup ↔
        (Pass.seen { pass with candidateIds := candidate.candidateId :: pass.candidateIds } ++
          candidate.claimKeys).Nodup := by
      rw [append_cons]
      exact (hadd.append_right _).symm.nodup_iff
    unfold checkCandidate CandidateOk
    rw [hkeys]
    by_cases h1 : candidate.candidateId = "" ∨ candidate.candidateId ∈ pass.candidateIds
    · rw [if_pos h1]
      refine ⟨fun h => (by cases h), fun h => ?_⟩
      rcases h1 with h1 | h1
      · exact absurd h1 h.1.1
      · have hnodup := hadd.nodup_iff.mp h.2.1.of_append_left
        exact absurd h1 ((Pass.nodup_candidate hs _).mp hnodup)
    · rw [if_neg h1]
      push Not at h1
      have hseen : (Pass.seen { pass with
          candidateIds := candidate.candidateId :: pass.candidateIds }).Nodup :=
        hadd.nodup_iff.mpr ((Pass.nodup_candidate hs _).mpr h1.2)
      have hsections : ∀ {r}, visit (checkSection ledger candidate.candidateId)
          { pass with candidateIds := candidate.candidateId :: pass.candidateIds }
          candidate.sections = .ok r ↔ _ :=
        (checkSection_admits ledger candidate.candidateId).visit.ok_iff hseen
      cases hv : visit (checkSection ledger candidate.candidateId)
          { pass with candidateIds := candidate.candidateId :: pass.candidateIds }
          candidate.sections with
      | error e =>
        refine ⟨fun h => (by cases h), fun h => ?_⟩
        rw [hsections.mpr ⟨h.1.2, h.2.1, rfl⟩] at hv
        cases hv
      | ok r' =>
        obtain ⟨hclaims, hnodup, rfl⟩ := hsections.mp hv
        simp only [Except.ok.injEq]
        rw [← flatMap_def]
        exact ⟨fun h => ⟨⟨h1.1, hclaims⟩, hnodup, h.symm⟩, fun h => h.2.2.symm⟩
  seen_next := by
    intro pass candidate
    have h := (checkSection_admits ledger candidate.candidateId).visit.seen_next
      { pass with candidateIds := candidate.candidateId :: pass.candidateIds } candidate.sections
    rw [append_cons]
    exact h.trans ((perm_append_singleton _ _).symm.append_right _)

end

end ContextDesk
