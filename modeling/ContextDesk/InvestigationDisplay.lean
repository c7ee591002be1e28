import ContextDesk.InvestigationSpans

/-!
# The document of an accepted answer

Everything that the document sorts is sorted by ids, and the ids of an accepted envelope are all
different, so the document is the same for every order of the envelope (`renderAnswerMarkdown_eq`).
-/

namespace ContextDesk

open Lib Lib.CodeSpan List

/-! ## Envelopes in another order -/

structure ClaimPermuted (a b : InvestigationClaimV1) : Prop where
  claimId : a.claimId = b.claimId
  claimKind : a.claimKind = b.claimKind
  text : a.text = b.text
  status : a.status = b.status
  evidenceIds : a.evidenceIds.Perm b.evidenceIds

structure CandidatePermuted (a b : InvestigationCandidateV1) : Prop where
  candidateId : a.candidateId = b.candidateId
  claims : Shuffled ClaimPermuted a.claims b.claims

/-- The envelopes differ in the order of candidates, of claims, of evidence ids and of citations. -/
structure EnvelopePermuted (a b : AnswerEnvelopeV1) : Prop where
  binding : a.binding = b.binding
  rootCauseEstablished : a.answer.rootCauseEstablished = b.answer.rootCauseEstablished
  candidates : Shuffled CandidatePermuted a.answer.candidates b.answer.candidates
  citations : a.answer.canonicalCitations.Perm b.answer.canonicalCitations

structure DistinctIds (answer : InvestigationAnswerV1) : Prop where
  candidates : (answer.candidates.map InvestigationCandidateV1.candidateId).Nodup
  claims : ∀ candidate ∈ answer.candidates,
    (candidate.claims.map InvestigationClaimV1.claimId).Nodup
  citations : (answer.canonicalCitations.map CanonicalCitationV1.evidenceId).Nodup

/-! ## The parts of the document -/

theorem citationOf_perm {citations citations' : List CanonicalCitationV1}
    (hperm : citations.Perm citations')
    (hd : (citations.map CanonicalCitationV1.evidenceId).Nodup) (id : String) :
    citationOf citations id = citationOf citations' id := by
  unfold citationOf
  refine find?_eq_of_perm ((reverse_perm _).trans (hperm.trans (reverse_perm _).symm)) ?_
  intro a ha b hb hida hidb
  rw [mem_reverse] at ha hb
  exact inj_on_of_nodup_map hd ha hb
    ((of_decide_eq_true hida).trans (of_decide_eq_true hidb).symm)

theorem sortDedup_eq {l l' : List String} (h : ∀ s, s ∈ l ↔ s ∈ l') :
    sortDedup l = sortDedup l' := by
  refine @Keyset.Ascending.eq_of_mem _ _ _ id _ _ (sortDedup_increasing l)
    (sortDedup_increasing l') fun s => ?_
  rw [mem_sortDedup, mem_sortDedup, h]

section

variable {citations citations' : List CanonicalCitationV1}
  (hc : ∀ id, citationOf citations id = citationOf citations' id)

include hc

theorem ClaimPermuted.citedIds_eq {a b : InvestigationClaimV1} (h : ClaimPermuted a b) :
    citedIds citations a = citedIds citations' b := by
  refine sortDedup_eq fun id => ?_
  rw [mem_filter, mem_filter, h.evidenceIds.mem_iff, hc]

theorem ClaimPermuted.renderClaim_eq {a b : InvestigationClaimV1} (h : ClaimPermuted a b) :
    renderClaim citations a = renderClaim citations' b := by
  have hnil : a.evidenceIds = [] ↔ b.evidenceIds = [] :=
    ⟨fun ha => (ha ▸ h.evidenceIds).nil_eq.symm, fun hb => (hb ▸ h.evidenceIds).eq_nil⟩
  unfold renderClaim
  simp only [h.status, h.text, h.citedIds_eq hc, ne_eq, hnil]

omit hc in
theorem CandidatePermuted.claimsOfKind {a b : InvestigationCandidateV1}
    (h : CandidatePermuted a b) (hd : (a.claims.map InvestigationClaimV1.claimId).Nodup)
    (kind : ClaimKind) :
    Forall₂ ClaimPermuted (claimsOfKind a kind) (claimsOfKind b kind) := by
  have hkind : Shuffled ClaimPermuted (a.claims.filter fun claim => claim.claimKind = kind)
      (b.claims.filter fun claim => claim.claimKind = kind) :=
    h.claims.filter fun c d hcd => by rw [hcd.claimKind]
  exact hkind.insertionSort (fun _ _ => Iff.rfl) (fun _ _ => Iff.rfl) (fun c d hcd => hcd.claimId)
    (hd.sublist (filter_sublist.map _))

omit hc in
theorem CandidatePermuted.nil_iff {a b : InvestigationCandidateV1} (h : CandidatePermuted a b)
    (hd : (a.claims.map InvestigationClaimV1.claimId).Nodup) (kind : ClaimKind) :
    ContextDesk.claimsOfKind a kind = [] ↔ ContextDesk.claimsOfKind b kind = [] := by
  have hlength := (h.claimsOfKind hd kind).length_eq
  rw [← length_eq_zero_iff, ← length_eq_zero_iff, hlength]

theorem CandidatePermuted.renderCandidate_eq {a b : InvestigationCandidateV1}
    (h : CandidatePermuted a b) (hd : (a.claims.map InvestigationClaimV1.claimId).Nodup) :
    renderCandidate citations a = renderCandidate citations' b := by
  have hkinds : renderKind citations a = renderKind citations' b := by
    funext kind
    unfold renderKind
    dsimp only
    rw [flatMap_eq_of_forall₂ (h.claimsOfKind hd kind) fun _ _ _ hcd => hcd.renderClaim_eq hc]
    simp only [h.nil_iff hd kind]
  unfold renderCandidate
  simp only [h.candidateId, hkinds, ne_eq, h.nil_iff hd]

end

/-! ## The document -/

section

variable {a b : AnswerEnvelopeV1} (h : EnvelopePermuted a b) (hd : DistinctIds a.answer)

include h hd

theorem EnvelopePermuted.citationOf_eq (id : String) :
    citationOf a.answer.canonicalCitations id = citationOf b.answer.canonicalCitations id :=
  citationOf_perm h.citations hd.citations id

theorem EnvelopePermuted.sortedCandidates :
    Forall₂ CandidatePermuted (sortedCandidates a.answer) (sortedCandidates b.answer) :=
  h.candidates.insertionSort (fun _ _ => Iff.rfl) (fun _ _ => Iff.rfl)
    (fun _ _ hcd => hcd.candidateId) hd.candidates

omit h in
theorem claims_nodup_of_sorted {candidate : InvestigationCandidateV1}
    (hc : candidate ∈ ContextDesk.sortedCandidates a.answer) :
    (candidate.claims.map InvestigationClaimV1.claimId).Nodup :=
  hd.claims candidate ((mem_insertionSort _).mp hc)

theorem EnvelopePermuted.displayedEvidence_eq :
    displayedEvidence a.answer = displayedEvidence b.answer := by
  unfold displayedEvidence
  rw [flatMap_eq_of_forall₂ (h.sortedCandidates hd) fun c hc d hcd => ?_]
  refine congrArg (List.flatMap · CLAIM_KIND_RENDER_ORDER) (funext fun kind => ?_)
  exact flatMap_eq_of_forall₂ (hcd.claimsOfKind (claims_nodup_of_sorted hd hc) kind)
    fun _ _ _ hclaim => hclaim.citedIds_eq (h.citationOf_eq hd)

theorem renderAnswerMarkdown_eq (isAlphanumeric : Char → Bool) :
    renderAnswerMarkdown isAlphanumeric a = renderAnswerMarkdown isAlphanumeric b := by
  have hsorted := h.sortedCandidates hd
  have hnil : sortedCandidates a.answer = [] ↔ sortedCandidates b.answer = [] := by
    rw [← length_eq_zero_iff, ← length_eq_zero_iff, hsorted.length_eq]
  have hbody : (sortedCandidates a.answer).flatMap (renderCandidate a.answer.canonicalCitations) =
      (sortedCandidates b.answer).flatMap (renderCandidate b.answer.canonicalCitations) :=
    flatMap_eq_of_forall₂ hsorted fun _ hc _ hcd =>
      hcd.renderCandidate_eq (h.citationOf_eq hd) (claims_nodup_of_sorted hd hc)
  have hcitations : displayedCitations a.answer = displayedCitations b.answer := by
    unfold displayedCitations
    rw [h.displayedEvidence_eq hd, funext (h.citationOf_eq hd)]
  unfold renderAnswerMarkdown renderHead
  simp only [h.binding, h.rootCauseEstablished, hnil, hbody, h.displayedEvidence_eq hd, hcitations]

end

/-! ## Accepted envelopes -/

theorem distinctIds_of_accepted {fromStr : String → Option ModelInvestigationAnswerV1}
    {raw : String} {ledger : HostEvidenceLedger} {env : AnswerEnvelopeV1}
    (hok : validateModelAnswer fromStr raw ledger = .ok env) : DistinctIds env.answer := by
  have hne : ledger.entries ≠ [] := by
    intro hnil
    rw [validateModelAnswer, if_pos hnil] at hok
    cases hok
  obtain ⟨proposal, -, ⟨-, -, hkeys, -⟩, rfl⟩ := (validateModelAnswer_ok hne).mp hok
  refine ⟨candidateIds_nodup hkeys, fun candidate hcandidate => ?_, ?_⟩
  · have hclaims := @claimIds_nodup ledger proposal hkeys
    unfold AnswerEnvelopeV1.claims at hclaims
    rw [map_flatMap, nodup_flatMap] at hclaims
    exact hclaims.1 candidate hcandidate
  · have hquoted := (describes_pass ledger proposal).1.1
    exact pairwise_map.mpr (hquoted.imp fun hlt heq => absurd heq (ne_of_lt hlt))

/-- Every text that the document shows in a span of its own has something to display. -/
def NonBlank (env : AnswerEnvelopeV1) : Prop :=
  ∀ t ∈ shownTexts env, ∃ c ∈ t, isDisplayable c = true

/-- The shape of an envelope whose texts are all shown: the numbers of candidates, claims and
citations, the statuses, and which excerpts add information. -/
def skeleton (isAlphanumeric : Char → Bool) (env : AnswerEnvelopeV1) : AnswerShape :=
  answerShape isAlphanumeric (fun _ => false) env

theorem answerShape_of_nonBlank {isAlphanumeric : Char → Bool} {env : AnswerEnvelopeV1}
    (h : NonBlank env) :
    answerShape isAlphanumeric isBlankText env = skeleton isAlphanumeric env := by
  refine answerShape_congr fun t ht => Bool.eq_false_of_not_eq_true fun hblank => ?_
  obtain ⟨c, hc, hshown⟩ := h t ht
  rw [isBlankText_iff.mp hblank c hc] at hshown
  cases hshown

/-- The document of an accepted envelope does not depend on its order, its lines are closed and
harmless, and outside of the spans it is made of host texts and of revisions, the same for every
envelope of the same shape. -/
theorem renderAnswerMarkdown_confined (isAlphanumeric : Char → Bool)
    {fromStr : String → Option ModelInvestigationAnswerV1} {raw : String}
    {ledger : HostEvidenceLedger} {env : AnswerEnvelopeV1}
    (hok : validateModelAnswer fromStr raw ledger = .ok env) :
    (∀ env', EnvelopePermuted env env' →
      renderAnswerMarkdown isAlphanumeric env' = renderAnswerMarkdown isAlphanumeric env) ∧
    (∀ line ∈ (renderAnswerMarkdown isAlphanumeric env).splitOn '\n',
      Even (line.count backtick) ∧ ∀ c ∈ line, isHarmless c = true) ∧
    outside backtick (renderAnswerMarkdown isAlphanumeric env) ∈
      KStar.kstar (hostTexts env.binding.revision) ∧
    ∀ env', NonBlank env → NonBlank env' →
      skeleton isAlphanumeric env = skeleton isAlphanumeric env' →
      outside backtick (renderAnswerMarkdown isAlphanumeric env) =
        outside backtick (renderAnswerMarkdown isAlphanumeric env') := by
  have hshown := renderAnswerMarkdown_shown isAlphanumeric env
  refine ⟨fun env' h => (renderAnswerMarkdown_eq h (distinctIds_of_accepted hok) _).symm,
    fun line hline => ⟨hshown.framed.even_lines (by decide) line hline, fun c hc => ?_⟩, ?_,
    fun env' hblank hblank' hskeleton => ?_⟩
  · obtain ⟨hmem, hne⟩ := mem_line hline hc
    exact (hshown.harmless c hmem).resolve_left hne
  · rw [hshown.framed.outside_eq]
    exact hshown.host
  · have hshown' := renderAnswerMarkdown_shown isAlphanumeric env'
    rw [hshown.framed.outside_eq, hshown'.framed.outside_eq, answerShape_of_nonBlank hblank,
      answerShape_of_nonBlank hblank', hskeleton]

theorem renderAnswerMarkdown_confined_cause :
    validateModelAnswer readCause rawCause ⟨causeBinding, [causeRow]⟩ =
      .ok (envelope ⟨causeBinding, [causeRow]⟩ causeProposal) ∧
    ∀ line ∈ (renderAnswerMarkdown Char.isAlphanum
      (envelope ⟨causeBinding, [causeRow]⟩ causeProposal)).splitOn '\n',
      Even (line.count backtick) ∧ ∀ c ∈ line, isHarmless c = true :=
  ⟨cause_accepted, (renderAnswerMarkdown_confined Char.isAlphanum cause_accepted).2.1⟩

end ContextDesk
