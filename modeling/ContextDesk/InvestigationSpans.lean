import ContextDesk.InvestigationAuthority
import ContextDesk.InvestigationMarkdown
import ContextDesk.Lib.CodeSpan
import ContextDesk.Lib.Sorting

/-!
# What untrusted text can do to the Markdown of an answer

Each dynamic value stays inside its code span (`literalSpan_shown`), so the text outside of the spans
is written by the host alone: it is the outline of the shape of the envelope
(`renderAnswerMarkdown_shown`), and a shape has no texts. For an accepted envelope the order of
candidates, claims, ids and citations does not matter, as their ids are all different.
-/

namespace ContextDesk

open Lib Lib.Text Lib.CodeSpan List

/-! ## Literal text -/

/-- Neither a line boundary nor a control character nor a bidi control. -/
def isHarmless (c : Char) : Bool :=
  !isLineBoundary c && !isControl c && !isBidiFormattingControl c

/-- A character that literal text keeps, or an apostrophe in its place. -/
def isDisplayable (c : Char) : Bool := isHarmless c && c ≠ ' '

theorem push_of_not_displayable (s : LiteralText) {c : Char} (hc : isDisplayable c = false) :
    (s.push c).out = s.out := by
  unfold LiteralText.push
  split
  · rfl
  · rename_i hspace
    split
    · rfl
    · rename_i hcontrol
      simp only [Bool.or_eq_true, decide_eq_true_eq, not_or, Bool.not_eq_true] at hspace hcontrol
      rw [isDisplayable, isHarmless, isBidiFormattingControl, hspace.1, hcontrol.1.1, hcontrol.2,
        decide_eq_true hspace.2] at hc
      cases hc

theorem push_of_displayable (s : LiteralText) {c : Char} (hc : isDisplayable c = true) :
    (s.push c).out = (if s.pendingSpace then s.out ++ [' '] else s.out) ++
      [if c = backtick then '\'' else c] := by
  simp only [isDisplayable, isHarmless, isBidiFormattingControl, Bool.and_eq_true,
    Bool.not_eq_true', decide_eq_true_eq] at hc
  obtain ⟨⟨⟨hline, hcontrol⟩, hbidi⟩, hspace⟩ := hc
  have hdel : c ≠ '\x7f' := by
    rintro rfl
    exact absurd hcontrol (by decide)
  unfold LiteralText.push
  rw [if_neg (by simp [hline, hspace]), if_neg (by simpa [hcontrol, hdel] using hbidi)]

def IsLiteral (c : Char) : Prop := isHarmless c = true ∧ c ≠ backtick

theorem push_literal {s : LiteralText} (hs : ∀ c ∈ s.out, IsLiteral c) (c : Char) :
    ∀ d ∈ (s.push c).out, IsLiteral d := by
  have hspaced : ∀ d ∈ (if s.pendingSpace then s.out ++ [' '] else s.out), IsLiteral d := by
    split
    · intro d hd
      rcases mem_append.mp hd with hd | hd
      · exact hs d hd
      · rw [mem_singleton.mp hd]
        exact ⟨by decide, by decide⟩
    · exact hs
  by_cases hc : isDisplayable c = true
  · rw [push_of_displayable s hc]
    intro d hd
    rcases mem_append.mp hd with hd | hd
    · exact hspaced d hd
    · rw [mem_singleton.mp hd]
      split
      · exact ⟨by decide, by decide⟩
      · rename_i htick
        rw [isDisplayable, Bool.and_eq_true] at hc
        exact ⟨hc.1, htick⟩
  · rw [push_of_not_displayable s (Bool.eq_false_of_not_eq_true hc)]
    exact hs

variable (raw : List Char)

theorem literalDisplayText_literal : ∀ c ∈ literalDisplayText raw, IsLiteral c := by
  have hfold : ∀ (raw : List Char) (s : LiteralText), (∀ c ∈ s.out, IsLiteral c) →
      ∀ c ∈ (raw.foldl LiteralText.push s).out, IsLiteral c := by
    intro raw
    induction raw with
    | nil => exact fun _ hs => hs
    | cons c raw ih => exact fun s hs => ih (s.push c) (push_literal hs c)
  exact hfold raw {} (by simp)

theorem foldl_push_displayable (s : LiteralText) :
    (∃ c ∈ (raw.foldl LiteralText.push s).out, isDisplayable c = true) ↔
      (∃ c ∈ s.out, isDisplayable c = true) ∨ ∃ c ∈ raw, isDisplayable c = true := by
  induction raw generalizing s with
  | nil => simp
  | cons c raw ih =>
    simp only [foldl_cons, ih, mem_cons, exists_eq_or_imp]
    rw [← or_assoc]
    refine or_congr_left ?_
    by_cases hc : isDisplayable c = true
    · have hlast : isDisplayable (if c = backtick then '\'' else c) = true := by
        split
        · decide
        · exact hc
      refine iff_of_true ⟨_, ?_, hlast⟩ (Or.inr hc)
      rw [push_of_displayable s hc]
      exact mem_append_right _ (mem_singleton_self _)
    · rw [push_of_not_displayable s (Bool.eq_false_of_not_eq_true hc)]
      exact (or_iff_left hc).symm

/-- A text is blank when nothing of it is displayed. -/
def isBlankText (raw : List Char) : Bool := literalDisplayText raw = []

theorem literalDisplayText_displayable :
    (∃ c ∈ literalDisplayText raw, isDisplayable c = true) ↔
      ∃ c ∈ raw, isDisplayable c = true := by
  refine (foldl_push_displayable raw {}).trans (or_iff_right ?_)
  rintro ⟨c, hc, -⟩
  cases hc

theorem isBlankText_iff {raw : List Char} :
    isBlankText raw = true ↔ ∀ c ∈ raw, isDisplayable c = false := by
  unfold isBlankText
  rw [decide_eq_true_eq]
  constructor
  · intro h c hc
    refine Bool.eq_false_of_not_eq_true fun hd => ?_
    obtain ⟨d, hd, -⟩ := (literalDisplayText_displayable raw).mpr ⟨c, hc, hd⟩
    rw [h] at hd
    cases hd
  · intro h
    have hkeep : ∀ (raw : List Char) (s : LiteralText), (∀ c ∈ raw, isDisplayable c = false) →
        (raw.foldl LiteralText.push s).out = s.out := by
      intro raw
      induction raw with
      | nil => exact fun _ _ => rfl
      | cons c raw ih =>
        intro s hraw
        obtain ⟨hc, hraw⟩ := forall_mem_cons.mp hraw
        rw [foldl_cons, ih _ hraw, push_of_not_displayable s hc]
    exact hkeep raw {} h

theorem isBlankText_display : isBlankText (literalDisplayText raw) = isBlankText raw := by
  have hnot := not_congr (literalDisplayText_displayable raw)
  push Not at hnot
  rw [Bool.eq_iff_iff, isBlankText_iff, isBlankText_iff]
  simpa only [Bool.not_eq_true, ne_eq] using hnot

/-! ## What the host writes -/

def HOST_TEXTS : List String :=
  ["# Investigation answer\n\n", "- Root cause established: ", "yes", "no", "\n",
    "- Confidence: not rated by this contract\n", "- Evidence snapshot: corpus ", " · events ",
    " · template analysis ", " · suppression ", "\nNo candidate was reported for this turn.\n",
    "\n## Candidate ", "\nNo claims were reported for this candidate.\n", "\n**", "Observations",
    "Symptoms", "Causal candidates", "Initiating causes", "Competing explanations",
    "Missing evidence", "**\n\n", "- ", "**[unsupported]**", "**[withheld]**", " ", " — cites ",
    ", ", " — no host citation available", "\n## Evidence\n\n", " — ", " · ",
    " · outside this turn's evidence snapshot", "\n  - ", EMPTY_VALUE_PLACEHOLDER]

/-- The fixed texts, and the numbers of the revision in decimal. -/
def hostTexts (revision : LogSnapshotRevisionV1) : Language Char :=
  {t | (∃ s ∈ HOST_TEXTS, t = s.toList) ∨ t = decimal revision.eventRevision ∨
    t = decimal revision.templateAnalysisRevision ∨ t = decimal revision.suppressionRevision}

/-- The text shows `out` outside of its spans, all of it from the host, and every span is closed on
its line. -/
structure Shown (revision : LogSnapshotRevisionV1) (text out : List Char) : Prop where
  framed : Framed backtick '\n' text out
  harmless : ∀ c ∈ text, c = '\n' ∨ isHarmless c = true
  host : out ∈ KStar.kstar (hostTexts revision)

variable {revision : LogSnapshotRevisionV1}

theorem hostTexts_harmless : ∀ s ∈ HOST_TEXTS, ∀ c ∈ s.toList,
    c ≠ backtick ∧ (c = '\n' ∨ isHarmless c = true) := by
  have hall : (HOST_TEXTS.all fun s => s.toList.all fun c =>
      c != backtick && (c == '\n' || isHarmless c)) = true := by decide +kernel
  simpa [all_eq_true] using hall

theorem decimal_harmless (n : UInt64) : ∀ c ∈ decimal n, c ≠ backtick ∧ isHarmless c = true := by
  intro c hc
  have hdigit : c.isDigit = true := Nat.isDigit_of_mem_toDigits (by decide) (by decide) hc
  simp only [Char.isDigit, ge_iff_le, Bool.and_eq_true, decide_eq_true_eq] at hdigit
  have hge : 48 ≤ c.toNat := UInt32.le_iff_toNat_le.mp hdigit.1
  have hle : c.toNat ≤ 57 := UInt32.le_iff_toNat_le.mp hdigit.2
  rw [← Char.ofNat_toNat c]
  generalize c.toNat = n at hge hle
  interval_cases n <;> exact ⟨by decide, by decide⟩

namespace Shown

theorem nil : Shown revision [] [] := ⟨.nil, by simp, Language.nil_mem_kstar _⟩

theorem append {a b x y : List Char} (ha : Shown revision a x) (hb : Shown revision b y) :
    Shown revision (a ++ b) (x ++ y) := by
  refine ⟨ha.framed.append hb.framed, fun c hc => ?_, ?_⟩
  · rcases mem_append.mp hc with hc | hc
    · exact ha.harmless c hc
    · exact hb.harmless c hc
  · obtain ⟨front, rfl, hfront⟩ := Language.mem_kstar.mp ha.host
    obtain ⟨back, rfl, hback⟩ := Language.mem_kstar.mp hb.host
    refine Language.mem_kstar.mpr ⟨front ++ back, flatten_append.symm, fun t ht => ?_⟩
    rcases mem_append.mp ht with ht | ht
    · exact hfront t ht
    · exact hback t ht

theorem flatMap {β : Type} {l : List β} {f g : β → List Char}
    (h : ∀ b ∈ l, Shown revision (f b) (g b)) :
    Shown revision (l.flatMap f) (l.flatMap g) := by
  induction l with
  | nil => exact nil
  | cons b l ih =>
    obtain ⟨hb, hl⟩ := forall_mem_cons.mp h
    rw [flatMap_cons, flatMap_cons]
    exact hb.append (ih hl)

theorem piece {t : List Char} (hquote : backtick ∉ t)
    (hharmless : ∀ c ∈ t, c = '\n' ∨ isHarmless c = true) (hhost : t ∈ hostTexts revision) :
    Shown revision t t :=
  ⟨.of_plain hquote, hharmless, Language.mem_kstar.mpr ⟨[t], by simp, by simpa using hhost⟩⟩

theorem fixed {s : String} (hs : s ∈ HOST_TEXTS) : Shown revision s.toList s.toList :=
  piece (fun hc => (hostTexts_harmless s hs backtick hc).1 rfl)
    (fun c hc => (hostTexts_harmless s hs c hc).2) (Or.inl ⟨s, hs, rfl⟩)

theorem number {n : UInt64} (h : decimal n ∈ hostTexts revision) :
    Shown revision (decimal n) (decimal n) :=
  piece (fun hc => (decimal_harmless n backtick hc).1 rfl)
    (fun c hc => Or.inr (decimal_harmless n c hc).2) h

theorem join {β : Type} {l : List β} {f g : β → List Char} {sep : String} (hsep : sep ∈ HOST_TEXTS)
    (h : ∀ b ∈ l, Shown revision (f b) (g b)) :
    Shown revision (sep.toList.intercalate (l.map f)) (sep.toList.intercalate (l.map g)) := by
  induction l with
  | nil => exact nil
  | cons b l ih =>
    obtain ⟨hb, hl⟩ := forall_mem_cons.mp h
    cases l with
    | nil => simpa using hb
    | cons d l =>
      rw [map_cons, map_cons, map_cons, map_cons,
        intercalate_cons_cons, intercalate_cons_cons]
      exact (hb.append (fixed hsep)).append (ih hl)

theorem cond {p : Prop} [Decidable p] {a x : List Char} (h : Shown revision a x) :
    Shown revision (if p then a else []) (if p then x else []) := by
  split
  · exact h
  · exact nil

end Shown

def emptyMark (blank : Bool) : List Char := if blank then EMPTY_VALUE_PLACEHOLDER.toList else []

theorem literalSpan_shown (raw : List Char) :
    Shown revision (literalSpan raw) (emptyMark (isBlankText raw)) := by
  unfold literalSpan emptyMark isBlankText
  dsimp only
  by_cases hnil : literalDisplayText raw = []
  · rw [if_pos hnil, decide_eq_true hnil, if_pos rfl]
    exact Shown.fixed (by simp [HOST_TEXTS, EMPTY_VALUE_PLACEHOLDER])
  · rw [if_neg hnil, decide_eq_false hnil, if_neg Bool.false_ne_true]
    have hliteral := literalDisplayText_literal raw
    refine ⟨.one_span (fun hc => (hliteral _ hc).2 rfl) (fun hc => ?_), fun c hc => ?_,
      Language.nil_mem_kstar _⟩
    · exact absurd (hliteral _ hc).1 (by decide)
    · rw [mem_cons, mem_append, mem_singleton] at hc
      rcases hc with rfl | hc | rfl
      · exact Or.inr (by decide)
      · exact Or.inr (hliteral c hc).1
      · exact Or.inr (by decide)

/-! ## Shapes -/

/-- A claim without its texts: which of them are blank, and how many citations there are. -/
structure ClaimShape where
  status : ClaimStatus
  blank : Bool
  cited : List Bool
  uncited : Bool
  deriving DecidableEq

structure CandidateShape where
  blank : Bool
  kinds : List (ClaimKind × List ClaimShape)
  deriving DecidableEq

structure CitationShape where
  blankId : Bool
  blankLabel : Bool
  blankLocator : Bool
  outsideSnapshot : Bool
  excerpt : Bool
  deriving DecidableEq

/-- An envelope without its texts, in the order of the document. -/
structure AnswerShape where
  rootCauseEstablished : Bool
  blankCorpus : Bool
  revision : LogSnapshotRevisionV1
  candidates : List CandidateShape
  citations : List CitationShape
  deriving DecidableEq

def ClaimShape.outline (s : ClaimShape) : List Char :=
  "- ".toList ++
    (match claimStatusMarker s.status with
      | some marker => marker.toList ++ " ".toList
      | none => []) ++
    emptyMark s.blank ++
    (if s.cited ≠ [] then " — cites ".toList ++ ", ".toList.intercalate (s.cited.map emptyMark)
    else if s.uncited then " — no host citation available".toList
    else []) ++ "\n".toList

def kindOutline (s : ClaimKind × List ClaimShape) : List Char :=
  if s.2 = [] then []
  else "\n**".toList ++ (claimKindLabel s.1).toList ++ "**\n\n".toList ++
    s.2.flatMap ClaimShape.outline

def CandidateShape.outline (s : CandidateShape) : List Char :=
  "\n## Candidate ".toList ++ emptyMark s.blank ++ "\n".toList ++ s.kinds.flatMap kindOutline ++
    if s.kinds.any fun kind => kind.2 ≠ [] then []
    else "\nNo claims were reported for this candidate.\n".toList

def CitationShape.outline (s : CitationShape) : List Char :=
  "- ".toList ++ emptyMark s.blankId ++ " — ".toList ++ emptyMark s.blankLabel ++
    " · ".toList ++ emptyMark s.blankLocator ++
    (if s.outsideSnapshot then " · outside this turn's evidence snapshot".toList else []) ++
    (if s.excerpt then "\n  - ".toList else []) ++ "\n".toList

def AnswerShape.outline (s : AnswerShape) : List Char :=
  "# Investigation answer\n\n".toList ++ "- Root cause established: ".toList ++
    (if s.rootCauseEstablished then "yes" else "no").toList ++ "\n".toList ++
    "- Confidence: not rated by this contract\n".toList ++
    "- Evidence snapshot: corpus ".toList ++ emptyMark s.blankCorpus ++
    " · events ".toList ++ decimal s.revision.eventRevision ++
    " · template analysis ".toList ++ decimal s.revision.templateAnalysisRevision ++
    " · suppression ".toList ++ decimal s.revision.suppressionRevision ++ "\n".toList ++
    (if s.candidates = [] then "\nNo candidate was reported for this turn.\n".toList else []) ++
    s.candidates.flatMap CandidateShape.outline ++
    if s.citations ≠ [] then
      "\n## Evidence\n\n".toList ++ s.citations.flatMap CitationShape.outline
    else []

section

variable (isAlphanumeric : Char → Bool) (blank : List Char → Bool)

def claimShape (citations : List CanonicalCitationV1) (claim : InvestigationClaimV1) :
    ClaimShape :=
  { status := claim.status, blank := blank claim.text.toList,
    cited := (citedIds citations claim).map fun id => blank id.toList,
    uncited := claim.evidenceIds ≠ [] }

def candidateShape (citations : List CanonicalCitationV1)
    (candidate : InvestigationCandidateV1) : CandidateShape :=
  { blank := blank candidate.candidateId.toList,
    kinds := CLAIM_KIND_RENDER_ORDER.map fun kind =>
      (kind, (claimsOfKind candidate kind).map (claimShape blank citations)) }

def citationShape (binding : AnswerBindingV1) (citation : CanonicalCitationV1) : CitationShape :=
  { blankId := blank citation.evidenceId.toList, blankLabel := blank citation.sourceLabel.toList,
    blankLocator := blank citation.locator.toList,
    outsideSnapshot := outsideSnapshot binding citation,
    excerpt := excerptShown isAlphanumeric citation }

/-- The shape of an envelope, `blank` telling which texts are. -/
def answerShape (envelope : AnswerEnvelopeV1) : AnswerShape :=
  { rootCauseEstablished := envelope.answer.rootCauseEstablished,
    blankCorpus := blank envelope.binding.corpusId.toList, revision := envelope.binding.revision,
    candidates := (sortedCandidates envelope.answer).map
      (candidateShape blank envelope.answer.canonicalCitations),
    citations := (displayedCitations envelope.answer).map
      (citationShape isAlphanumeric blank envelope.binding) }

end

/-! ## The text outside of the spans -/

variable (citations : List CanonicalCitationV1)

theorem renderClaim_shown (claim : InvestigationClaimV1) :
    Shown revision (renderClaim citations claim)
      (claimShape isBlankText citations claim).outline := by
  unfold renderClaim ClaimShape.outline claimShape
  dsimp only
  have hdash : Shown revision "- ".toList "- ".toList := .fixed (by simp [HOST_TEXTS])
  have hend : Shown revision "\n".toList "\n".toList := .fixed (by simp [HOST_TEXTS])
  refine (((hdash.append ?_).append (literalSpan_shown _)).append ?_).append hend
  · cases claim.status
    · exact .nil
    · exact (Shown.fixed (by simp [HOST_TEXTS])).append (.fixed (by simp [HOST_TEXTS]))
    · exact (Shown.fixed (by simp [HOST_TEXTS])).append (.fixed (by simp [HOST_TEXTS]))
  · simp only [map_map, ne_eq, map_eq_nil_iff, decide_eq_true_eq]
    by_cases hcited : citedIds citations claim = []
    · simp only [hcited, not_true_eq_false, if_false]
      exact .cond (.fixed (by simp [HOST_TEXTS]))
    · simp only [hcited, not_false_eq_true, if_true]
      exact (Shown.fixed (by simp [HOST_TEXTS])).append
        (.join (by simp [HOST_TEXTS]) fun id _ => literalSpan_shown id.toList)

theorem kindLabel_host (kind : ClaimKind) : claimKindLabel kind ∈ HOST_TEXTS := by
  cases kind <;> simp [claimKindLabel, HOST_TEXTS]

theorem renderKind_shown (candidate : InvestigationCandidateV1) (kind : ClaimKind) :
    Shown revision (renderKind citations candidate kind)
      (kindOutline (kind, (claimsOfKind candidate kind).map
        (claimShape isBlankText citations))) := by
  unfold renderKind kindOutline
  dsimp only
  by_cases hnil : claimsOfKind candidate kind = []
  · rw [if_pos hnil, if_pos (by simpa using hnil)]
    exact .nil
  · rw [if_neg hnil, if_neg (by simpa using hnil), flatMap_map]
    refine (((Shown.fixed ?_).append (.fixed (kindLabel_host kind))).append (.fixed ?_)).append
      (.flatMap fun claim _ => renderClaim_shown citations claim)
    · simp [HOST_TEXTS]
    · simp [HOST_TEXTS]

theorem renderCandidate_shown (candidate : InvestigationCandidateV1) :
    Shown revision (renderCandidate citations candidate)
      (candidateShape isBlankText citations candidate).outline := by
  unfold renderCandidate CandidateShape.outline candidateShape
  dsimp only
  rw [flatMap_map, any_map]
  have hany : ((fun kind : ClaimKind × List ClaimShape => decide (kind.2 ≠ [])) ∘ fun kind =>
      (kind, (claimsOfKind candidate kind).map (claimShape isBlankText citations))) =
      fun kind => decide (claimsOfKind candidate kind ≠ []) := by
    funext kind
    simp
  rw [hany]
  refine ((((Shown.fixed (by simp [HOST_TEXTS])).append (literalSpan_shown _)).append
    (.fixed (by simp [HOST_TEXTS]))).append
    (.flatMap fun kind _ => renderKind_shown citations candidate kind)).append ?_
  split
  · exact .nil
  · exact .fixed (by simp [HOST_TEXTS])

theorem renderCitation_shown (isAlphanumeric : Char → Bool) (binding : AnswerBindingV1)
    (citation : CanonicalCitationV1) :
    Shown revision (renderCitation isAlphanumeric binding citation)
      (citationShape isAlphanumeric isBlankText binding citation).outline := by
  unfold renderCitation CitationShape.outline citationShape citationLine
  dsimp only
  refine ((((((((Shown.fixed ?_).append (literalSpan_shown _)).append (.fixed ?_)).append
    (literalSpan_shown _)).append (.fixed ?_)).append (literalSpan_shown _)).append
    (.cond (.fixed ?_))).append ?_).append (.fixed ?_)
  case refine_5 =>
    split
    · rename_i hshown
      have hsome : isBlankText (literalDisplayText citation.content.toList) = false := by
        rw [isBlankText_display]
        unfold excerptShown at hshown
        simp only [Bool.and_eq_true, Bool.not_eq_true', isEmpty_eq_false_iff] at hshown
        exact decide_eq_false hshown.1
      have hspan := @literalSpan_shown revision (literalDisplayText citation.content.toList)
      have hlead : Shown revision "\n  - ".toList "\n  - ".toList :=
        .fixed (by simp [HOST_TEXTS])
      have h := hlead.append hspan
      rwa [hsome, emptyMark, if_neg Bool.false_ne_true, append_nil] at h
    · exact .nil
  all_goals simp [HOST_TEXTS]

theorem citedIds_isSome {citations : List CanonicalCitationV1} {claim : InvestigationClaimV1}
    {id : String} (h : id ∈ citedIds citations claim) : (citationOf citations id).isSome = true :=
  (mem_filter.mp (mem_sortDedup.mp h)).2

theorem displayedCitations_eq_nil {answer : InvestigationAnswerV1} :
    displayedCitations answer = [] ↔ displayedEvidence answer = [] := by
  unfold displayedCitations
  rw [filterMap_eq_nil_iff]
  refine ⟨fun h => eq_nil_iff_forall_not_mem.mpr fun id hid => ?_, fun h => by simp [h]⟩
  have hmem := mem_sortDedup.mp hid
  simp only [mem_flatMap] at hmem
  obtain ⟨candidate, -, kind, -, claim, -, hcited⟩ := hmem
  have hsome := citedIds_isSome hcited
  rw [h id hid] at hsome
  cases hsome

theorem renderHead_shown (envelope : AnswerEnvelopeV1) :
    Shown envelope.binding.revision (renderHead envelope)
      ("# Investigation answer\n\n".toList ++ "- Root cause established: ".toList ++
        (if envelope.answer.rootCauseEstablished then "yes" else "no").toList ++ "\n".toList ++
        "- Confidence: not rated by this contract\n".toList ++
        "- Evidence snapshot: corpus ".toList ++
        emptyMark (isBlankText envelope.binding.corpusId.toList) ++
        " · events ".toList ++ decimal envelope.binding.revision.eventRevision ++
        " · template analysis ".toList ++
        decimal envelope.binding.revision.templateAnalysisRevision ++
        " · suppression ".toList ++ decimal envelope.binding.revision.suppressionRevision ++
        "\n".toList) := by
  unfold renderHead
  refine ((((((((((((Shown.fixed ?_).append (.fixed ?_)).append (.fixed ?_)).append
    (.fixed ?_)).append (.fixed ?_)).append (.fixed ?_)).append (literalSpan_shown _)).append
    (.fixed ?_)).append (.number (Or.inr (Or.inl rfl)))).append (.fixed ?_)).append
    (.number (Or.inr (Or.inr (Or.inl rfl))))).append (.fixed ?_)).append
    (.number (Or.inr (Or.inr (Or.inr rfl)))) |>.append (.fixed ?_)
  case refine_3 => split <;> simp [HOST_TEXTS]
  all_goals simp [HOST_TEXTS]

theorem renderAnswerMarkdown_shown (isAlphanumeric : Char → Bool) (envelope : AnswerEnvelopeV1) :
    Shown envelope.binding.revision (renderAnswerMarkdown isAlphanumeric envelope)
      (answerShape isAlphanumeric isBlankText envelope).outline := by
  unfold renderAnswerMarkdown AnswerShape.outline answerShape
  dsimp only
  refine (((renderHead_shown envelope).append ?_).append ?_).append ?_
  · simp only [map_eq_nil_iff]
    exact .cond (.fixed (by simp [HOST_TEXTS]))
  · rw [flatMap_map]
    exact .flatMap fun candidate _ => renderCandidate_shown _ candidate
  · simp only [ne_eq, map_eq_nil_iff, displayedCitations_eq_nil, flatMap_map]
    exact .cond ((Shown.fixed (by simp [HOST_TEXTS])).append
      (.flatMap fun citation _ => renderCitation_shown isAlphanumeric _ citation))

/-- The texts of an envelope that the document shows in spans of their own, the excerpts apart. -/
def shownTexts (envelope : AnswerEnvelopeV1) : List (List Char) :=
  let answer := envelope.answer
  envelope.binding.corpusId.toList ::
    ((sortedCandidates answer).flatMap fun candidate => candidate.candidateId.toList ::
      CLAIM_KIND_RENDER_ORDER.flatMap fun kind => (claimsOfKind candidate kind).flatMap fun claim =>
        claim.text.toList :: (citedIds answer.canonicalCitations claim).map String.toList) ++
    (displayedCitations answer).flatMap fun citation =>
      [citation.evidenceId.toList, citation.sourceLabel.toList, citation.locator.toList]

/-- The shape depends on the texts only through which of them are blank. -/
theorem answerShape_congr {isAlphanumeric : Char → Bool} {blank blank' : List Char → Bool}
    {envelope : AnswerEnvelopeV1} (h : ∀ t ∈ shownTexts envelope, blank t = blank' t) :
    answerShape isAlphanumeric blank envelope = answerShape isAlphanumeric blank' envelope := by
  unfold shownTexts at h
  simp only [cons_append, forall_mem_cons, forall_mem_append, mem_flatMap,
    forall_exists_index, and_imp] at h
  obtain ⟨hcorpus, hcandidates, hcitations⟩ := h
  have hclaims : (sortedCandidates envelope.answer).map
      (candidateShape blank envelope.answer.canonicalCitations) =
      (sortedCandidates envelope.answer).map
        (candidateShape blank' envelope.answer.canonicalCitations) := by
    refine map_congr_left fun candidate hcandidate => ?_
    have htexts := fun t => hcandidates t candidate hcandidate
    unfold candidateShape
    rw [htexts _ mem_cons_self]
    congr 1
    refine map_congr_left fun kind hkind => ?_
    congr 1
    refine map_congr_left fun claim hclaim => ?_
    have hclaimTexts : ∀ t ∈ claim.text.toList ::
        (citedIds envelope.answer.canonicalCitations claim).map String.toList,
        blank t = blank' t := fun t ht => htexts t (mem_cons_of_mem _
      (mem_flatMap.mpr ⟨kind, hkind, mem_flatMap.mpr ⟨claim, hclaim, ht⟩⟩))
    unfold claimShape
    rw [hclaimTexts _ mem_cons_self]
    congr 1
    exact map_congr_left fun id hid =>
      hclaimTexts _ (mem_cons_of_mem _ (mem_map.mpr ⟨id, hid, rfl⟩))
  have hcites : (displayedCitations envelope.answer).map
      (citationShape isAlphanumeric blank envelope.binding) =
      (displayedCitations envelope.answer).map
        (citationShape isAlphanumeric blank' envelope.binding) := by
    refine map_congr_left fun citation hcitation => ?_
    have htexts := fun t => hcitations t citation hcitation
    unfold citationShape
    rw [htexts citation.evidenceId.toList (by simp), htexts citation.sourceLabel.toList (by simp),
      htexts citation.locator.toList (by simp)]
  unfold answerShape
  rw [hcorpus, hclaims, hcites]

end ContextDesk
