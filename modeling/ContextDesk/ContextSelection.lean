import ContextDesk.ContextPlan

/-!
# What the context plan selects

The inventory holds the history first, then the first candidate of each memory id, then the rest
(`inventory_eq`). Selection changes dispositions and reasons only (`selection_forall₂`). Of equal ids
all but the first are duplicates, no family exceeds its quota, and the included characters stay
within the budget or the history's estimate.
-/

namespace ContextDesk.Planning

open Lib Lib.ByteIndex Memory List

variable {S : Type} [LinearOrder S] (scoring : Scoring S) (budget : ContextPlanBudget S)
  (snap : ContextInventorySnapshot S)

/-! ## The inventory -/

theorem normalizeMemoryId_begins (id : Text) : "memory:".toList <+: normalizeMemoryId id := by
  unfold normalizeMemoryId
  by_cases h : "memory:".toList.isPrefixOf id = true
  · rw [if_pos h]
    exact List.isPrefixOf_iff_prefix.mp h
  · rw [if_neg h]
    exact prefix_append _ _

theorem history_not_memory : ¬ "memory:".toList <+: "history:window".toList := by decide

/-- The candidates of the memories, in the order of their discovery. -/
def memoryCandidates : List (ContextCandidate S) :=
  snap.memoryHits.map (hitCandidate scoring budget snap) ++
    (snap.memoryRecords.filter fun rec => rec.status = .active).map
      (recordCandidate scoring budget snap)

/-- The candidates that come after the memories. -/
def otherCandidates : List (ContextCandidate S) :=
  snap.attachments.map (attachmentCandidate scoring budget snap) ++
    snap.workspaceHits.map (workspaceCandidate scoring budget snap) ++
    snap.pinnedSkills.map (skillCandidate scoring) ++
    snap.optionalConnectors.map connectorCandidate ++
    (snap.linkedCorpusId.map (corpusCandidate snap)).toList ++
    (snap.explorerViewport.map (viewportCandidate scoring snap)).toList ++
    (snap.userSelection.map (selectionCandidate scoring)).toList

theorem foldl_addHit (hits : List (MemoryHitSnapshot S)) (inv : Inventory S) :
    hits.foldl (addHit scoring budget snap) inv =
      (((firstSeen (·.id) inv.1 (hits.map (hitCandidate scoring budget snap))).map (·.id)).reverse
        ++ inv.1,
        inv.2 ++ firstSeen (·.id) inv.1 (hits.map (hitCandidate scoring budget snap))) := by
  induction hits generalizing inv with
  | nil => simp [firstSeen]
  | cons hit hits ih =>
    have hid : (hitCandidate scoring budget snap hit).id = normalizeMemoryId hit.id := rfl
    rw [foldl_cons, ih, map_cons, firstSeen_cons, hid]
    unfold addHit
    by_cases hseen : normalizeMemoryId hit.id ∈ inv.1
    · rw [if_pos hseen, if_pos hseen]
    · rw [if_neg hseen, if_neg hseen]
      simp [hid]

/-- A candidate that is read as a memory was marked when it was made. -/
def KindMarked (c : ContextCandidate S) : Prop :=
  "memory:".toList <+: c.id → .memoryKindEligible ∈ c.reasons

omit [LinearOrder S] in
theorem KindMarked.mark {c : ContextCandidate S} (h : KindMarked c) {id : Text}
    (hid : c.id = normalizeMemoryId id) : c.markKindEligible = c := by
  unfold ContextCandidate.markKindEligible
  rw [if_pos (h (hid ▸ normalizeMemoryId_begins id))]

theorem foldl_addRecord (records : List MemoryRecordSnapshot) (inv : Inventory S)
    (hinv : ∀ c ∈ inv.2, KindMarked c) :
    (records.foldl (addRecord scoring budget snap) inv).2 =
      inv.2 ++ firstSeen (·.id) inv.1 ((records.filter fun rec => rec.status = .active).map
        (recordCandidate scoring budget snap)) := by
  induction records generalizing inv with
  | nil => simp [firstSeen]
  | cons rec records ih =>
    rw [foldl_cons, filter_cons]
    by_cases hactive : rec.status = .active
    · rw [if_pos (decide_eq_true hactive), map_cons, firstSeen_cons]
      have hid : (recordCandidate scoring budget snap rec).id = normalizeMemoryId rec.id := rfl
      rw [hid]
      by_cases hseen : normalizeMemoryId rec.id ∈ inv.1
      · have hstep : addRecord scoring budget snap inv rec = inv := by
          unfold addRecord
          rw [if_neg (not_not.mpr hactive), if_pos hseen, updateFirst_eq_self fun c hc hcid =>
            (hinv c hc).mark (of_decide_eq_true hcid)]
        rw [if_pos hseen, hstep]
        exact ih inv hinv
      · have hstep : addRecord scoring budget snap inv rec =
            (normalizeMemoryId rec.id :: inv.1,
              inv.2 ++ [recordCandidate scoring budget snap rec]) := by
          unfold addRecord
          rw [if_neg (not_not.mpr hactive), if_neg hseen]
        rw [if_neg hseen, hstep, ih]
        · rw [append_assoc]
          rfl
        · intro c hc
          rcases mem_append.mp hc with hc | hc
          · exact hinv c hc
          · rw [mem_singleton.mp hc]
            exact fun _ => mem_cons_self
    · have hstep : addRecord scoring budget snap inv rec = inv := if_pos hactive
      rw [if_neg (fun h => hactive (of_decide_eq_true h)), hstep]
      exact ih inv hinv

theorem inventory_eq : inventory scoring budget snap =
    (historyCandidate scoring snap).toList ++
      (firstSeen (·.id) [] (memoryCandidates scoring budget snap) ++
        otherCandidates scoring budget snap) := by
  have hhist : ∀ c ∈ (historyCandidate scoring snap).toList, KindMarked c := by
    intro c hc
    rw [Option.mem_toList, historyCandidate] at hc
    split at hc
    · cases hc
      exact fun h => absurd h history_not_memory
    · cases hc
  unfold inventory memoryCandidates otherCandidates
  simp only [foldl_addHit]
  rw [foldl_addRecord, firstSeen_append]
  · simp only [append_assoc]
  · intro c hc
    rcases mem_append.mp hc with hc | hc
    · exact hhist c hc
    · obtain ⟨hit, -, rfl⟩ := mem_map.mp ((firstSeen_sublist _ _ _).subset hc)
      exact fun _ => mem_cons_self

/-! ## Reasons and families -/

/-- The reasons that a disposition comes with. -/
def Reasoned (c : ContextCandidate S) : Prop :=
  match c.disposition with
  | .included => .excludedEcho ∉ c.reasons ∧ .excludedDuplicate ∉ c.reasons
  | .excluded => c.reasons = [.excludedDuplicate] ∨
      (c.family = .durableMemory ∧ ∃ r, c.reasons = [.memoryKindEligible, r]) ∨
      (c.family ≠ .durableMemory ∧ c.reasons = [.excludedIrrelevant])
  | .deferred => True
  | .truncated => True

omit [LinearOrder S] in
theorem reasoned_included {c : ContextCandidate S} (reasons : List ContextReasonCode)
    (hd : c.disposition = .included) (hr : c.reasons = reasons)
    (hout : .excludedEcho ∉ reasons ∧ .excludedDuplicate ∉ reasons) : Reasoned c := by
  unfold Reasoned
  rw [hd, hr]
  exact hout

theorem memoryVerdict_cases (title snippet : Text) (score : S) (queryTokens : List Text)
    (minLexical : Option S) (historyText : Text) :
    (memoryVerdict scoring title snippet score queryTokens minLexical historyText).1 = .excluded ∨
      memoryVerdict scoring title snippet score queryTokens minLexical historyText =
        (.included, .includedByRank) := by
  unfold memoryVerdict
  dsimp only
  split_ifs
  · exact .inl rfl
  · exact .inl rfl
  · exact .inl rfl
  · exact .inr rfl

theorem reasoned_memoryCandidate (id : Text) (kind : Kind) (title snippet : Text) (score : S)
    (queryTokens : List Text) (minLexical : Option S) (historyText : Text) :
    Reasoned (memoryCandidate scoring id kind title snippet score queryTokens minLexical
      historyText) := by
  rcases memoryVerdict_cases scoring title snippet score queryTokens minLexical historyText with
    h | h
  · unfold Reasoned memoryCandidate
    dsimp only
    rw [h]
    exact .inr (.inl ⟨rfl, _, rfl⟩)
  · refine reasoned_included [.memoryKindEligible, .includedByRank] (congrArg Prod.fst h) ?_
      (by decide)
    unfold memoryCandidate
    dsimp only
    rw [h]

variable {c : ContextCandidate S}

omit [LinearOrder S] in
theorem reasoned_relevant {relevant : Bool} (hf : c.family ≠ .durableMemory)
    (hd : c.disposition = if relevant then .included else .excluded)
    (hr : c.reasons = [if relevant then .includedByRank else .excludedIrrelevant]) :
    Reasoned c := by
  cases relevant with
  | true => exact reasoned_included [.includedByRank] hd hr (by decide)
  | false =>
    unfold Reasoned
    rw [hd]
    exact .inr (.inr ⟨hf, hr⟩)

omit [LinearOrder S] in
theorem reasoned_corpusCandidate (corpus : Text) : Reasoned (corpusCandidate snap corpus) := by
  by_cases hlinked : snap.linkedTurn = true
  · refine reasoned_included [.includedByRank] (if_pos hlinked) ?_ (by decide)
    exact congrArg (fun r => [r]) (if_pos hlinked)
  · have hd : (corpusCandidate snap corpus).disposition = .deferred := if_neg hlinked
    unfold Reasoned
    rw [hd]
    exact trivial

theorem mem_memoryCandidates (hc : c ∈ memoryCandidates scoring budget snap) :
    c.family = .durableMemory ∧ Reasoned c := by
  rcases mem_append.mp hc with hc | hc
  · obtain ⟨hit, -, rfl⟩ := mem_map.mp hc
    exact ⟨rfl, reasoned_memoryCandidate ..⟩
  · obtain ⟨rec, -, rfl⟩ := mem_map.mp hc
    exact ⟨rfl, reasoned_memoryCandidate ..⟩

theorem mem_otherCandidates (hc : c ∈ otherCandidates scoring budget snap) :
    c.family ≠ .conversationHistory ∧ Reasoned c := by
  simp only [otherCandidates, mem_append, Option.mem_toList, Option.map_eq_some_iff,
    mem_map] at hc
  rcases hc with (((((hc | hc) | hc) | hc) | hc) | hc) | hc <;> obtain ⟨entry, -, rfl⟩ := hc
  · exact ⟨nofun, reasoned_relevant nofun rfl rfl⟩
  · exact ⟨nofun, reasoned_relevant nofun rfl rfl⟩
  · exact ⟨nofun, reasoned_included [.includedPinnedSkill] rfl rfl (by decide)⟩
  · exact ⟨nofun, trivial⟩
  · exact ⟨nofun, reasoned_corpusCandidate ..⟩
  · exact ⟨nofun, reasoned_included [.includedByUserSelection] rfl rfl (by decide)⟩
  · exact ⟨nofun, reasoned_included [.includedByUserSelection] rfl rfl (by decide)⟩

omit [LinearOrder S] in
theorem mem_historyCandidate {c : ContextCandidate S} (hc : historyCandidate scoring snap = some c) :
    c.family = .conversationHistory ∧ c.disposition = .included ∧ Reasoned c := by
  unfold historyCandidate at hc
  split at hc
  · cases hc
    exact ⟨rfl, rfl, reasoned_included [.includedHistoryWindow] rfl rfl (by decide)⟩
  · cases hc

/-! ## Selection -/

omit [LinearOrder S] in
theorem applyQuotas_forall₂ (counts : ContextSourceFamily → Nat) (used : Nat)
    (l : List (ContextCandidate S)) :
    Forall₂ (fun c d => d = c ∨ c.disposition = .included ∧ d = c.asTruncated) l
      (applyQuotasAndBudget budget counts used l) := by
  induction l generalizing counts used with
  | nil => exact .nil
  | cons c l ih =>
    unfold applyQuotasAndBudget
    split_ifs with hincluded hquota hchars
    · exact .cons (.inl rfl) (ih _ _)
    · exact .cons (.inr ⟨not_not.mp hincluded, rfl⟩) (ih _ _)
    · exact .cons (.inr ⟨not_not.mp hincluded, rfl⟩) (ih _ _)
    · exact .cons (.inl rfl) (ih _ _)

omit [LinearOrder S] in
@[simp] theorem included_cons (c : ContextCandidate S) (l : List (ContextCandidate S)) :
    included (c :: l) = if c.disposition = .included then c :: included l else included l := by
  unfold included
  rw [filter_cons]
  simp only [decide_eq_true_eq]

omit [LinearOrder S] in
theorem charsOf_cons (c : ContextCandidate S) (l : List (ContextCandidate S)) :
    charsOf (c :: l) = c.estimatedChars + charsOf l := by
  unfold charsOf
  rw [map_cons, sum_cons]

omit [LinearOrder S] in
theorem included_truncated (c : ContextCandidate S) (l : List (ContextCandidate S)) :
    included (c.asTruncated :: l) = included l := by
  rw [included_cons, if_neg]
  exact nofun

omit [LinearOrder S] in
theorem applyQuotas_chars (counts : ContextSourceFamily → Nat) (used : Nat)
    {l : List (ContextCandidate S)} (hl : ∀ c ∈ l, c.family ≠ .conversationHistory) :
    used + charsOf (included (applyQuotasAndBudget budget counts used l)) ≤
      max budget.globalChars used := by
  induction l generalizing counts used with
  | nil => exact le_max_right _ _
  | cons c l ih =>
    have hrest := fun counts used => ih counts used fun d hd => hl d (mem_cons_of_mem c hd)
    unfold applyQuotasAndBudget
    split_ifs with hincluded hquota hchars
    · rw [included_cons, if_neg hincluded]
      exact hrest _ _
    · rw [included_truncated]
      exact hrest _ _
    · rw [included_truncated]
      exact hrest _ _
    · have hfits : used + c.estimatedChars ≤ budget.globalChars := by
        by_contra hover
        exact hchars ⟨by omega, hl c mem_cons_self⟩
      have h := hrest (Function.update counts c.family (counts c.family + 1))
        (used + c.estimatedChars)
      rw [included_cons, if_pos (not_not.mp hincluded), charsOf_cons]
      omega

def takenOf (family : ContextSourceFamily) (l : List (ContextCandidate S)) :
    List (ContextCandidate S) := (included l).filter fun c => c.family = family

omit [LinearOrder S] in
theorem applyQuotas_taken (counts : ContextSourceFamily → Nat) (used : Nat)
    (l : List (ContextCandidate S)) (family : ContextSourceFamily) :
    counts family + (takenOf family (applyQuotasAndBudget budget counts used l)).length ≤
      max (budget.quota family) (counts family) := by
  induction l generalizing counts used with
  | nil => exact le_max_right _ _
  | cons c l ih =>
    unfold applyQuotasAndBudget takenOf
    split_ifs with hincluded hquota hchars
    · rw [included_cons, if_neg hincluded]
      exact ih _ _
    · rw [included_truncated]
      exact ih _ _
    · rw [included_truncated]
      exact ih _ _
    · have h := ih (Function.update counts c.family (counts c.family + 1))
        (used + c.estimatedChars)
      rw [included_cons, if_pos (not_not.mp hincluded), filter_cons]
      by_cases hfamily : c.family = family
      · subst hfamily
        rw [Function.update_self] at h
        rw [if_pos (decide_eq_true rfl), length_cons]
        unfold takenOf at h
        omega
      · rw [Function.update_of_ne (Ne.symm hfamily)] at h
        rw [if_neg fun heq => hfamily (of_decide_eq_true heq)]
        exact h

/-- The inventory in order, with repeated ids marked. -/
def ranked : List (ContextCandidate S) :=
  markSeen (·.id) ContextCandidate.asDuplicate []
    (sortByKey (sortKey scoring) (inventory scoring budget snap))

theorem ranked_reasoned : ∀ c ∈ ranked scoring budget snap, Reasoned c := by
  intro d hd
  obtain ⟨c, hc, hcd⟩ := exists_of_mem_forall₂ (markSeen_forall₂ _ _ _ _) hd
  rcases hcd with rfl | rfl
  · rw [(sortByKey_perm _ _).mem_iff, inventory_eq, mem_append, mem_append,
      Option.mem_toList] at hc
    rcases hc with hc | hc | hc
    · exact (mem_historyCandidate scoring snap hc).2.2
    · exact (mem_memoryCandidates scoring budget snap ((firstSeen_sublist _ _ _).subset hc)).2
    · exact (mem_otherCandidates scoring budget snap hc).2
  · exact .inl rfl

omit [LinearOrder S] in
theorem asTruncated_reasoned (c : ContextCandidate S) : Reasoned c.asTruncated := trivial

theorem selection_reasoned : ∀ c ∈ selection scoring budget snap, Reasoned c := by
  intro d hd
  obtain ⟨c, hc, hcd⟩ := exists_of_mem_forall₂ (applyQuotas_forall₂ budget _ _ _) hd
  rcases hcd with rfl | ⟨-, rfl⟩
  · exact ranked_reasoned scoring budget snap d hc
  · exact asTruncated_reasoned c

def IsRepeat (c : ContextCandidate S) : Prop :=
  c.disposition = .excluded ∧ c.reasons = [.excludedDuplicate]

/-- Of the candidates with one id all but the first are repeats. -/
def FirstOfIds (l : List (ContextCandidate S)) : Prop :=
  l.Pairwise fun c d => c.id = d.id → IsRepeat d

theorem selection_firstOfIds : FirstOfIds (selection scoring budget snap) := by
  have hranked : FirstOfIds (ranked scoring budget snap) := by
    refine (@markSeen_marks _ _ _ _ ContextCandidate.asDuplicate (fun _ => rfl) _ _).2.imp ?_
    intro c d hmark hid
    obtain ⟨e, rfl⟩ := hmark hid
    exact ⟨rfl, rfl⟩
  refine pairwise_of_forall₂ (applyQuotas_forall₂ budget _ _ _) hranked ?_
  intro c c' d d' hc hd hrepeat hid
  have hcid : c'.id = c.id := by
    rcases hc with rfl | ⟨-, rfl⟩
    · rfl
    · rfl
  rcases hd with rfl | ⟨hincluded, rfl⟩
  · exact hrepeat (hcid ▸ hid)
  · have h := hrepeat (hcid ▸ hid)
    rw [h.1] at hincluded
    cases hincluded

theorem rank_pos {family : ContextSourceFamily} (h : family ≠ .conversationHistory) :
    0 < family.rank := by
  cases family with
  | conversationHistory => exact absurd rfl h
  | _ => decide

/-- What the history may take beyond the budget. -/
def historyEstimate : Nat := (historyCandidate scoring snap).elim 0 (·.estimatedChars)

theorem ranked_eq : ∃ rest, ranked scoring budget snap =
    (historyCandidate scoring snap).toList ++ rest ∧
      ∀ c ∈ rest, c.family ≠ .conversationHistory := by
  have hlater : ∀ c ∈ firstSeen (·.id) [] (memoryCandidates scoring budget snap) ++
      otherCandidates scoring budget snap, c.family ≠ .conversationHistory := by
    intro c hc
    rcases mem_append.mp hc with hc | hc
    · rw [(mem_memoryCandidates scoring budget snap ((firstSeen_sublist _ _ _).subset hc)).1]
      exact nofun
    · exact (mem_otherCandidates scoring budget snap hc).1
  have hsort : sortByKey (sortKey scoring) (inventory scoring budget snap) =
      (historyCandidate scoring snap).toList ++ sortByKey (sortKey scoring)
        (firstSeen (·.id) [] (memoryCandidates scoring budget snap) ++
          otherCandidates scoring budget snap) := by
    rw [inventory_eq, sortByKey_append]
    · congr 1
      cases historyCandidate scoring snap with
      | none => exact sortByKey_of_pairwise .nil
      | some c => exact sortByKey_of_pairwise (pairwise_singleton _ c)
    · intro c hc d hd
      rw [Option.mem_toList] at hc
      refine Prod.Lex.toLex_le_toLex.mpr (.inl ?_)
      rw [(mem_historyCandidate scoring snap hc).1]
      exact rank_pos (hlater d hd)
  have hrest : ∀ seen, ∀ d ∈ markSeen (·.id) ContextCandidate.asDuplicate seen
      (sortByKey (sortKey scoring) (firstSeen (·.id) [] (memoryCandidates scoring budget snap) ++
        otherCandidates scoring budget snap)), d.family ≠ .conversationHistory := by
    intro seen d hd
    obtain ⟨c, hc, hcd⟩ := exists_of_mem_forall₂ (markSeen_forall₂ _ _ _ _) hd
    have hfamily := hlater c ((sortByKey_perm _ _).mem_iff.mp hc)
    rcases hcd with rfl | rfl
    · exact hfamily
    · exact hfamily
  unfold ranked
  rw [hsort]
  cases historyCandidate scoring snap with
  | none => exact ⟨_, rfl, hrest []⟩
  | some c => exact ⟨_, rfl, hrest [c.id]⟩

theorem selection_chars : charsOf (included (selection scoring budget snap)) ≤
    max budget.globalChars (historyEstimate scoring snap) := by
  have hselection : selection scoring budget snap =
      applyQuotasAndBudget budget (fun _ => 0) 0 (ranked scoring budget snap) := rfl
  obtain ⟨rest, heq, hrest⟩ := ranked_eq scoring budget snap
  unfold historyEstimate
  rw [hselection, heq]
  cases hhist : historyCandidate scoring snap with
  | none =>
    have h := applyQuotas_chars budget (fun _ => 0) 0 hrest
    rw [Nat.zero_add] at h
    exact h
  | some c =>
    -- the history is admitted whatever its size
    obtain ⟨hfamily, hincluded, -⟩ := mem_historyCandidate scoring snap hhist
    have hquota : ¬ budget.quota .conversationHistory ≤ 0 := Nat.not_succ_le_zero 0
    rw [Option.toList_some, singleton_append, applyQuotasAndBudget,
      if_neg (not_not.mpr hincluded), hfamily, if_neg hquota, if_neg (fun h => h.2 rfl),
      included_cons, if_pos hincluded, charsOf_cons]
    have h := applyQuotas_chars budget
      (Function.update (fun _ => 0) .conversationHistory (0 + 1)) (0 + c.estimatedChars) hrest
    rw [Nat.zero_add c.estimatedChars] at h ⊢
    exact h

theorem selection_taken (family : ContextSourceFamily) :
    (takenOf family (selection scoring budget snap)).length ≤ budget.quota family := by
  have h := applyQuotas_taken budget (fun _ => 0) 0 (ranked scoring budget snap) family
  rw [Nat.zero_add, max_eq_left (Nat.zero_le _)] at h
  exact h

/-! ## The cap -/

omit [LinearOrder S] in
theorem capCandidates_sublist (l : List (ContextCandidate S)) :
    ∃ l', l'.Perm l ∧ (capCandidates l).Sublist l' := by
  unfold capCandidates
  split_ifs
  · exact ⟨_, sortByKey_perm _ l, take_sublist _ _⟩
  · exact ⟨l, List.Perm.refl l, List.Sublist.refl l⟩

omit [LinearOrder S] in
theorem mem_of_mem_capCandidates {l : List (ContextCandidate S)} {c : ContextCandidate S}
    (hc : c ∈ capCandidates l) : c ∈ l := by
  obtain ⟨l', hperm, hsub⟩ := capCandidates_sublist l
  exact hperm.mem_iff.mp (hsub.subset hc)

omit [LinearOrder S] in
theorem FirstOfIds.cap {l : List (ContextCandidate S)} (h : FirstOfIds l) :
    FirstOfIds (capCandidates l) := by
  unfold capCandidates
  split_ifs
  · refine List.Pairwise.sublist (take_sublist _ _) (pairwise_sortByKey h ?_)
    intro c hc d hd hrank hid
    have hne : c ≠ d := fun heq => absurd hrank (heq ▸ lt_irrefl _)
    rcases pairwise_either h hc hd hne with hcd | hdc
    · exact hcd hid
    · -- the earlier of the two would be the repeat, which no rank follows
      rw [(hdc hid.symm).1] at hrank
      cases hd' : d.disposition <;> rw [hd'] at hrank <;> exact absurd hrank (by decide)
  · exact h

/-! ## The plan -/

variable (strategy : RelevanceStrategy)

theorem plan_reasoned : ∀ c ∈ (buildContextPlan scoring snap budget strategy).candidates,
    Reasoned c := fun c hc =>
  selection_reasoned scoring budget snap c (mem_of_mem_capCandidates hc)

theorem plan_firstOfIds :
    FirstOfIds (buildContextPlan scoring snap budget strategy).candidates :=
  (selection_firstOfIds scoring budget snap).cap

omit [LinearOrder S] in
theorem included_capCandidates_sublist (l : List (ContextCandidate S)) :
    ∃ l', l'.Perm (included l) ∧ (included (capCandidates l)).Sublist l' := by
  obtain ⟨l', hperm, hsub⟩ := capCandidates_sublist l
  exact ⟨included l', hperm.filter _, hsub.filter _⟩

theorem plan_chars : (buildContextPlan scoring snap budget strategy).includedChars ≤
    max budget.globalChars (historyEstimate scoring snap) := by
  refine le_trans ?_ (selection_chars scoring budget snap)
  obtain ⟨l', hperm, hsub⟩ := included_capCandidates_sublist (selection scoring budget snap)
  have hsum := (hperm.map (·.estimatedChars)).sum_eq
  exact le_of_le_of_eq ((hsub.map _).sum_le_sum fun _ _ => Nat.zero_le _) hsum

theorem plan_taken (family : ContextSourceFamily) :
    (takenOf family (buildContextPlan scoring snap budget strategy).candidates).length ≤
      budget.quota family := by
  refine le_trans ?_ (selection_taken scoring budget snap family)
  obtain ⟨l', hperm, hsub⟩ := included_capCandidates_sublist (selection scoring budget snap)
  exact le_of_le_of_eq (hsub.filter _).length_le (hperm.filter _).length_eq

end ContextDesk.Planning
