import ContextDesk.ContextSelection

/-!
# The order of discovery

The plan does not depend on the order in which entries were found as long as entries that compete
agree: memories of one id, and attachments, workspace hits and skills of one id and one score. The
sort is by family, score and id, so such entries keep the order of their discovery, and the first of
them is the one that is no duplicate. Where nothing was lost to the cap the condition is exact
(`orderFree`).
-/

namespace ContextDesk.Planning

open Lib Lib.ByteIndex Memory List

variable {S : Type} [LinearOrder S] (scoring : Scoring S) (budget : ContextPlanBudget S)

/-- The same inventory, found in another order. -/
structure Reordered (snap snap' : ContextInventorySnapshot S) : Prop where
  memoryHits : snap'.memoryHits.Perm snap.memoryHits
  memoryRecords : snap'.memoryRecords.Perm snap.memoryRecords
  attachments : snap'.attachments.Perm snap.attachments
  workspaceHits : snap'.workspaceHits.Perm snap.workspaceHits
  pinnedSkills : snap'.pinnedSkills.Perm snap.pinnedSkills
  optionalConnectors : snap'.optionalConnectors.Perm snap.optionalConnectors
  rest : snap' =
    { snap with
      memoryHits := snap'.memoryHits
      memoryRecords := snap'.memoryRecords
      attachments := snap'.attachments
      workspaceHits := snap'.workspaceHits
      pinnedSkills := snap'.pinnedSkills
      optionalConnectors := snap'.optionalConnectors }

def OrderFree (snap : ContextInventorySnapshot S) (strategy : RelevanceStrategy) : Prop :=
  ∀ snap', Reordered snap snap' →
    buildContextPlan scoring snap' budget strategy = buildContextPlan scoring snap budget strategy

def attachmentScore (snap : ContextInventorySnapshot S) (att : AttachmentSnapshot) : S :=
  lexicalScore scoring (tokenize scoring snap.userText)
    (att.name ++ ' ' :: (att.relPath ++ ' ' :: att.bodyPreview.getD []))

def workspaceScore (snap : ContextInventorySnapshot S) (hit : WorkspaceHitSnapshot S) : S :=
  maxScore hit.score (lexicalScore scoring (tokenize scoring snap.userText)
    (hit.path ++ ' ' :: hit.snippet))

/-- Entries that compete for one place in the order show the same. -/
structure EntriesAgree (snap : ContextInventorySnapshot S) : Prop where
  memoryHits : ∀ a ∈ snap.memoryHits, ∀ b ∈ snap.memoryHits,
    normalizeMemoryId a.id = normalizeMemoryId b.id →
      hitCandidate scoring budget snap a = hitCandidate scoring budget snap b
  memoryRecords : ∀ a ∈ snap.memoryRecords, ∀ b ∈ snap.memoryRecords, a.status = .active →
    b.status = .active → normalizeMemoryId a.id = normalizeMemoryId b.id →
      (∀ hit ∈ snap.memoryHits, normalizeMemoryId hit.id ≠ normalizeMemoryId a.id) →
        recordCandidate scoring budget snap a = recordCandidate scoring budget snap b
  attachments : ∀ a ∈ snap.attachments, ∀ b ∈ snap.attachments, a.relPath = b.relPath →
    attachmentScore scoring snap a = attachmentScore scoring snap b →
      a.name = b.name ∧
        min a.size 2000 + min (a.bodyPreview.getD []).length 200 =
          min b.size 2000 + min (b.bodyPreview.getD []).length 200 ∧
        a.bodyPreview.map (fun s => s.take 120) = b.bodyPreview.map (fun s => s.take 120)
  workspaceHits : ∀ a ∈ snap.workspaceHits, ∀ b ∈ snap.workspaceHits, a.path = b.path →
    workspaceScore scoring snap a = workspaceScore scoring snap b →
      min a.snippet.length 400 = min b.snippet.length 400 ∧
        a.snippet.take 120 = b.snippet.take 120
  pinnedSkills : ∀ a ∈ snap.pinnedSkills, ∀ b ∈ snap.pinnedSkills, a.id = b.id →
    a.name = b.name ∧ a.description.length = b.description.length ∧
      a.description.take 100 = b.description.take 100

/-! ## Agreement is enough -/

theorem Reordered.candidates {snap snap' : ContextInventorySnapshot S}
    (h : Reordered snap snap') :
    historyCandidate scoring snap' = historyCandidate scoring snap ∧
      hitCandidate scoring budget snap' = hitCandidate scoring budget snap ∧
      recordCandidate scoring budget snap' = recordCandidate scoring budget snap ∧
      attachmentCandidate scoring budget snap' = attachmentCandidate scoring budget snap ∧
      workspaceCandidate scoring budget snap' = workspaceCandidate scoring budget snap ∧
      corpusCandidate snap' = corpusCandidate snap ∧
      viewportCandidate scoring snap' = viewportCandidate scoring snap := by
  rw [h.rest]
  exact ⟨rfl, rfl, rfl, rfl, rfl, rfl, rfl⟩

omit [LinearOrder S] in
theorem Reordered.singles {snap snap' : ContextInventorySnapshot S} (h : Reordered snap snap') :
    snap'.linkedCorpusId = snap.linkedCorpusId ∧ snap'.explorerViewport = snap.explorerViewport ∧
      snap'.userSelection = snap.userSelection ∧ snap'.sessionId = snap.sessionId ∧
      snap'.turnId = snap.turnId ∧ snap'.linkedTurn = snap.linkedTurn := by
  rw [h.rest]
  exact ⟨rfl, rfl, rfl, rfl, rfl, rfl⟩

variable {scoring} {budget} {snap snap' : ContextInventorySnapshot S}

omit [LinearOrder S] in
theorem sortKey_eq_iff {c d : ContextCandidate S} : sortKey scoring c = sortKey scoring d ↔
    c.family = d.family ∧ c.score.getD scoring.zero = d.score.getD scoring.zero ∧ c.id = d.id := by
  unfold sortKey
  rw [toLex_inj, Prod.mk.injEq, toLex_inj, Prod.mk.injEq, OrderDual.toDual_inj]
  refine and_congr_left' ⟨fun h => ?_, congrArg _⟩
  cases hc : c.family <;> cases hd : d.family <;> rw [hc, hd] at h <;> first | rfl | cases h

theorem underKey_map_perm {β : Type} {cand : β → ContextCandidate S} {l l' : List β}
    (hperm : l'.Perm l)
    (hsame : ∀ a ∈ l, ∀ b ∈ l, sortKey scoring (cand a) = sortKey scoring (cand b) →
      cand a = cand b) (k : ℕ ×ₗ Sᵒᵈ ×ₗ List Char) :
    underKey (sortKey scoring) k (l'.map cand) = underKey (sortKey scoring) k (l.map cand) := by
  refine (underKey_eq_of_perm (hperm.map cand).symm ?_).symm
  intro c hc d hd hck hdk
  obtain ⟨a, ha, rfl⟩ := mem_map.mp hc
  obtain ⟨b, hb, rfl⟩ := mem_map.mp hd
  exact hsame a ha b hb (hck.trans hdk.symm)

theorem EntriesAgree.attachment (h : EntriesAgree scoring budget snap) {a b : AttachmentSnapshot}
    (ha : a ∈ snap.attachments) (hb : b ∈ snap.attachments)
    (hkey : sortKey scoring (attachmentCandidate scoring budget snap a) =
      sortKey scoring (attachmentCandidate scoring budget snap b)) :
    attachmentCandidate scoring budget snap a = attachmentCandidate scoring budget snap b := by
  obtain ⟨-, hscore, hid⟩ := sortKey_eq_iff.mp hkey
  have hpath : a.relPath = b.relPath := append_cancel_left hid
  obtain ⟨hname, hchars, hpreview⟩ := h.attachments a ha b hb hpath hscore
  have hscore' : attachmentScore scoring snap a = attachmentScore scoring snap b := hscore
  unfold attachmentScore at hscore'
  unfold attachmentCandidate
  dsimp only
  rw [hscore', hpreview, hchars, hname, hpath]

theorem EntriesAgree.workspaceHit (h : EntriesAgree scoring budget snap)
    {a b : WorkspaceHitSnapshot S} (ha : a ∈ snap.workspaceHits) (hb : b ∈ snap.workspaceHits)
    (hkey : sortKey scoring (workspaceCandidate scoring budget snap a) =
      sortKey scoring (workspaceCandidate scoring budget snap b)) :
    workspaceCandidate scoring budget snap a = workspaceCandidate scoring budget snap b := by
  obtain ⟨-, hscore, hid⟩ := sortKey_eq_iff.mp hkey
  have hpath : a.path = b.path := append_cancel_left hid
  obtain ⟨hchars, hsnippet⟩ := h.workspaceHits a ha b hb hpath hscore
  have hscore' : workspaceScore scoring snap a = workspaceScore scoring snap b := hscore
  unfold workspaceScore at hscore'
  unfold workspaceCandidate
  dsimp only
  rw [hscore', hsnippet, hchars, hpath]

theorem EntriesAgree.skill (h : EntriesAgree scoring budget snap) {a b : SkillSnapshot}
    (ha : a ∈ snap.pinnedSkills) (hb : b ∈ snap.pinnedSkills)
    (hkey : sortKey scoring (skillCandidate scoring a) = sortKey scoring (skillCandidate scoring b)) :
    skillCandidate scoring a = skillCandidate scoring b := by
  obtain ⟨-, -, hid⟩ := sortKey_eq_iff.mp hkey
  have hskill : a.id = b.id := append_cancel_left hid
  obtain ⟨hname, hlength, hdescription⟩ := h.pinnedSkills a ha b hb hskill
  unfold skillCandidate
  rw [hskill, hname, hlength, hdescription]

omit [LinearOrder S] in
theorem connectorCandidate_inj {a b : ConnectorSlotSnapshot}
    (hid : (connectorCandidate a : ContextCandidate S).id =
      (connectorCandidate b : ContextCandidate S).id) :
    (connectorCandidate a : ContextCandidate S) = connectorCandidate b := by
  have hname : a.name = b.name := append_cancel_left hid
  unfold connectorCandidate
  rw [hname]

/-- The first memory of an id is the same in every order. -/
theorem EntriesAgree.find_memory (h : EntriesAgree scoring budget snap)
    (hr : Reordered snap snap') (id : Text) :
    (memoryCandidates scoring budget snap').find? (fun c => c.id = id) =
      (memoryCandidates scoring budget snap).find? fun c => c.id = id := by
  obtain ⟨-, hhit, hrecord, -⟩ := hr.candidates scoring budget
  unfold memoryCandidates
  rw [hhit, hrecord, find?_append, find?_append]
  have hhits : (snap'.memoryHits.map (hitCandidate scoring budget snap)).find?
      (fun c => c.id = id) =
        (snap.memoryHits.map (hitCandidate scoring budget snap)).find? fun c => c.id = id := by
    refine (find?_eq_of_perm (hr.memoryHits.map _).symm ?_).symm
    intro c hc d hd hcid hdid
    obtain ⟨a, ha, rfl⟩ := mem_map.mp hc
    obtain ⟨b, hb, rfl⟩ := mem_map.mp hd
    exact h.memoryHits a ha b hb ((of_decide_eq_true hcid).trans (of_decide_eq_true hdid).symm)
  rw [hhits]
  cases hfind : (snap.memoryHits.map (hitCandidate scoring budget snap)).find?
      fun c => c.id = id with
  | some c => rfl
  | none =>
    -- without a hit of the id the records decide
    refine (find?_eq_of_perm ((hr.memoryRecords.filter _).map _).symm ?_).symm
    intro c hc d hd hcid hdid
    obtain ⟨a, ha, rfl⟩ := mem_map.mp hc
    obtain ⟨b, hb, rfl⟩ := mem_map.mp hd
    rw [mem_filter, decide_eq_true_eq] at ha hb
    refine h.memoryRecords a ha.1 b hb.1 ha.2 hb.2
      ((of_decide_eq_true hcid).trans (of_decide_eq_true hdid).symm) fun hit hmem heq => ?_
    refine find?_eq_none.mp hfind _ (mem_map_of_mem hmem) (decide_eq_true ?_)
    exact heq.trans (of_decide_eq_true hcid)

theorem EntriesAgree.underKey_memory (h : EntriesAgree scoring budget snap)
    (hr : Reordered snap snap') (k : ℕ ×ₗ Sᵒᵈ ×ₗ List Char) :
    underKey (sortKey scoring) k (firstSeen (·.id) [] (memoryCandidates scoring budget snap')) =
      underKey (sortKey scoring) k
        (firstSeen (·.id) [] (memoryCandidates scoring budget snap)) := by
  have hid : ∀ c : ContextCandidate S, sortKey scoring c = k →
      decide (c.id = (ofLex (ofLex k).2).2) = true := by
    rintro c rfl
    exact decide_eq_true rfl
  rw [← underKey_filter hid, ← underKey_filter hid (firstSeen _ _ (memoryCandidates _ _ snap)),
    filter_firstSeen, filter_firstSeen, h.find_memory hr]

theorem EntriesAgree.underKey_other (h : EntriesAgree scoring budget snap)
    (hr : Reordered snap snap') (k : ℕ ×ₗ Sᵒᵈ ×ₗ List Char) :
    underKey (sortKey scoring) k (otherCandidates scoring budget snap') =
      underKey (sortKey scoring) k (otherCandidates scoring budget snap) := by
  obtain ⟨-, -, -, hattachment, hworkspace, hcorpus, hviewport⟩ := hr.candidates scoring budget
  obtain ⟨hlinked, hvp, hsel, -⟩ := hr.singles
  unfold otherCandidates
  simp only [underKey_append]
  rw [hattachment, hworkspace, hcorpus, hviewport, hlinked, hvp, hsel,
    underKey_map_perm hr.attachments fun a ha b hb => h.attachment ha hb,
    underKey_map_perm hr.workspaceHits fun a ha b hb => h.workspaceHit ha hb,
    underKey_map_perm hr.pinnedSkills fun a ha b hb => h.skill ha hb,
    underKey_map_perm hr.optionalConnectors fun a _ b _ hkey =>
      connectorCandidate_inj (sortKey_eq_iff.mp hkey).2.2]

theorem EntriesAgree.selection_eq (h : EntriesAgree scoring budget snap)
    (hr : Reordered snap snap') :
    selection scoring budget snap' = selection scoring budget snap := by
  have hsort : sortByKey (sortKey scoring) (inventory scoring budget snap') =
      sortByKey (sortKey scoring) (inventory scoring budget snap) := by
    refine sortByKey_eq_iff.mpr fun k => ?_
    rw [inventory_eq, inventory_eq, underKey_append, underKey_append, underKey_append,
      underKey_append, (hr.candidates scoring budget).1, h.underKey_memory hr,
      h.underKey_other hr]
  unfold selection
  rw [hsort]

theorem EntriesAgree.orderFree (h : EntriesAgree scoring budget snap)
    (strategy : RelevanceStrategy) : OrderFree scoring budget snap strategy := by
  intro snap' hr
  obtain ⟨-, -, -, hsession, hturn, hlinked⟩ := hr.singles
  unfold buildContextPlan
  rw [h.selection_eq hr, hsession, hturn, hlinked]

/-! ## What the plan shows of the order -/

def ContextCandidate.plain (c : ContextCandidate S) : ContextCandidate S :=
  { c with disposition := .included, reasons := [] }

theorem selection_plain (snap : ContextInventorySnapshot S) :
    (selection scoring budget snap).map ContextCandidate.plain =
      (sortByKey (sortKey scoring) (inventory scoring budget snap)).map ContextCandidate.plain := by
  have hranked : (ranked scoring budget snap).map ContextCandidate.plain =
      (sortByKey (sortKey scoring) (inventory scoring budget snap)).map
        ContextCandidate.plain := by
    refine map_eq_of_forall₂ ((markSeen_forall₂ _ _ _ _).imp fun c d h => ?_)
    rcases h with rfl | rfl
    · rfl
    · rfl
  rw [← hranked]
  refine map_eq_of_forall₂ ((applyQuotas_forall₂ budget _ _ _).imp fun c d h => ?_)
  rcases h with rfl | ⟨-, rfl⟩
  · rfl
  · rfl

theorem OrderFree.selection_eq {strategy : RelevanceStrategy}
    (h : OrderFree scoring budget snap strategy)
    (hcap : (buildContextPlan scoring snap budget strategy).candidatesDiscovered ≤
      maxPlanCandidates) (hr : Reordered snap snap') :
    selection scoring budget snap' = selection scoring budget snap := by
  have hplan := h snap' hr
  have hcandidates : capCandidates (selection scoring budget snap') =
      capCandidates (selection scoring budget snap) := congrArg ContextPlan.candidates hplan
  have hlength : (selection scoring budget snap').length =
      (selection scoring budget snap).length := congrArg ContextPlan.candidatesDiscovered hplan
  have hle : (selection scoring budget snap).length ≤ maxPlanCandidates := hcap
  unfold capCandidates at hcandidates
  rwa [if_neg (Nat.not_lt.mpr (hlength ▸ hle)), if_neg (Nat.not_lt.mpr hle)] at hcandidates

/-- The first of its family under a key of the sort. -/
def Leads (scoring : Scoring S) (budget : ContextPlanBudget S)
    (snap : ContextInventorySnapshot S) (c : ContextCandidate S) : Prop :=
  ∃ before after, inventory scoring budget snap = before ++ c :: after ∧
    ∀ d ∈ before, d.family ≠ c.family

variable {c : ContextCandidate S}

theorem Leads.head (h : Leads scoring budget snap c) :
    ((underKey (sortKey scoring) (sortKey scoring c)
      ((selection scoring budget snap).map ContextCandidate.plain))).head? = some c.plain := by
  obtain ⟨before, after, hinventory, hbefore⟩ := h
  have hnone : underKey (sortKey scoring) (sortKey scoring c) before = [] := by
    refine eq_nil_iff_forall_not_mem.mpr fun d hd => ?_
    obtain ⟨hmem, hkey⟩ := mem_underKey.mp hd
    exact hbefore d hmem (sortKey_eq_iff.mp hkey).1
  have hplain : underKey (sortKey scoring) (sortKey scoring c)
      ((selection scoring budget snap).map ContextCandidate.plain) =
        (underKey (sortKey scoring) (sortKey scoring c)
          (inventory scoring budget snap)).map ContextCandidate.plain := by
    rw [selection_plain, ← underKey_sortByKey (sortKey scoring) _ (inventory scoring budget snap)]
    unfold underKey
    rw [filter_map]
    rfl
  rw [hplain, hinventory, underKey_append, hnone, underKey_cons, if_pos rfl]
  rfl

/-- Where all orders are one, so are those that compete for the lead. -/
theorem Leads.plain_eq {snap₁ snap₂ : ContextInventorySnapshot S} {d : ContextCandidate S}
    (hc : Leads scoring budget snap₁ c) (hd : Leads scoring budget snap₂ d)
    (hselection : selection scoring budget snap₁ = selection scoring budget snap₂)
    (hkey : sortKey scoring c = sortKey scoring d) : c.plain = d.plain := by
  have h := hc.head
  rw [hselection, hkey, hd.head] at h
  exact (Option.some.inj h).symm

/-! ## Any entry may be found first -/

theorem exists_front {β : Type} {a : β} {l : List β} (h : a ∈ l) : ∃ rest, (a :: rest).Perm l := by
  obtain ⟨front, back, rfl⟩ := append_of_mem h
  exact ⟨front ++ back, perm_middle.symm⟩

theorem family_ne_of_mem_memories {f : ContextSourceFamily}
    (hf : f ≠ .conversationHistory ∧ f ≠ .durableMemory)
    (hc : c ∈ (historyCandidate scoring snap).toList ++
      firstSeen (·.id) [] (memoryCandidates scoring budget snap)) : c.family ≠ f := by
  rcases mem_append.mp hc with hc | hc
  · rw [(mem_historyCandidate scoring snap (Option.mem_toList.mp hc)).1]
    exact hf.1.symm
  · rw [(mem_memoryCandidates scoring budget snap ((firstSeen_sublist _ _ _).subset hc)).1]
    exact hf.2.symm

theorem leads_attachment (scoring : Scoring S) (budget : ContextPlanBudget S)
    {a : AttachmentSnapshot} (ha : a ∈ snap.attachments) :
    ∃ snap', Reordered snap snap' ∧
      Leads scoring budget snap' (attachmentCandidate scoring budget snap a) := by
  obtain ⟨rest, hperm⟩ := exists_front ha
  refine ⟨{ snap with attachments := a :: rest }, ⟨.refl _, .refl _, hperm, .refl _, .refl _,
    .refl _, rfl⟩, (historyCandidate scoring snap).toList ++
      firstSeen (·.id) [] (memoryCandidates scoring budget snap), ?_⟩
  rw [inventory_eq]
  unfold otherCandidates
  simp only [map_cons, append_assoc, cons_append]
  refine ⟨_, rfl, fun d hd => ?_⟩
  exact family_ne_of_mem_memories (f := .chatAttachment) (by decide) hd

theorem leads_workspaceHit (scoring : Scoring S) (budget : ContextPlanBudget S)
    {a : WorkspaceHitSnapshot S} (ha : a ∈ snap.workspaceHits) :
    ∃ snap', Reordered snap snap' ∧
      Leads scoring budget snap' (workspaceCandidate scoring budget snap a) := by
  obtain ⟨rest, hperm⟩ := exists_front ha
  refine ⟨{ snap with workspaceHits := a :: rest }, ⟨.refl _, .refl _, .refl _, hperm, .refl _,
    .refl _, rfl⟩, (historyCandidate scoring snap).toList ++
      firstSeen (·.id) [] (memoryCandidates scoring budget snap) ++
        snap.attachments.map (attachmentCandidate scoring budget snap), ?_⟩
  rw [inventory_eq]
  unfold otherCandidates
  simp only [map_cons, append_assoc, cons_append]
  refine ⟨_, rfl, fun d hd => ?_⟩
  rw [← append_assoc] at hd
  rcases mem_append.mp hd with hd | hd
  · exact family_ne_of_mem_memories (f := .workspaceSearch) (by decide) hd
  · obtain ⟨att, -, rfl⟩ := mem_map.mp hd
    intro heq
    cases heq

theorem leads_skill (scoring : Scoring S) (budget : ContextPlanBudget S)
    {a : SkillSnapshot} (ha : a ∈ snap.pinnedSkills) :
    ∃ snap', Reordered snap snap' ∧ Leads scoring budget snap' (skillCandidate scoring a) := by
  obtain ⟨rest, hperm⟩ := exists_front ha
  refine ⟨{ snap with pinnedSkills := a :: rest }, ⟨.refl _, .refl _, .refl _, .refl _, hperm,
    .refl _, rfl⟩, (historyCandidate scoring snap).toList ++
      firstSeen (·.id) [] (memoryCandidates scoring budget snap) ++
        (snap.attachments.map (attachmentCandidate scoring budget snap) ++
          snap.workspaceHits.map (workspaceCandidate scoring budget snap)), ?_⟩
  rw [inventory_eq]
  unfold otherCandidates
  simp only [map_cons, append_assoc, cons_append]
  refine ⟨_, rfl, fun d hd => ?_⟩
  rw [← append_assoc] at hd
  rcases mem_append.mp hd with hd | hd
  · exact family_ne_of_mem_memories (f := .pinnedSkill) (by decide) hd
  · rcases mem_append.mp hd with hd | hd
    · obtain ⟨att, -, rfl⟩ := mem_map.mp hd
      intro heq
      cases heq
    · obtain ⟨hit, -, rfl⟩ := mem_map.mp hd
      intro heq
      cases heq

/-! ## The memory that the plan shows -/

theorem memory_shape (hc : c ∈ memoryCandidates scoring budget snap) :
    "memory:".toList <+: c.id ∧ ∃ r, c.reasons = [.memoryKindEligible, r] := by
  rcases mem_append.mp hc with hc | hc
  · obtain ⟨hit, -, rfl⟩ := mem_map.mp hc
    exact ⟨normalizeMemoryId_begins hit.id, _, rfl⟩
  · obtain ⟨rec, -, rfl⟩ := mem_map.mp hc
    exact ⟨normalizeMemoryId_begins rec.id, _, rfl⟩

theorem other_not_memory (hc : c ∈ otherCandidates scoring budget snap) :
    ¬ "memory:".toList <+: c.id := by
  have hletter : ∀ id : Text, id.head? ≠ some 'm' → ¬ "memory:".toList <+: id := by
    rintro id hid ⟨rest, rfl⟩
    exact hid rfl
  simp only [otherCandidates, mem_append, Option.mem_toList, Option.map_eq_some_iff,
    mem_map] at hc
  rcases hc with (((((hc | hc) | hc) | hc) | hc) | hc) | hc <;> obtain ⟨entry, -, rfl⟩ := hc <;>
    exact hletter _ fun h => absurd (Option.some.inj h) (by decide)

theorem find_inventory
    (hc : (memoryCandidates scoring budget snap).find? (fun d => d.id = c.id) = some c) :
    (sortByKey (sortKey scoring) (inventory scoring budget snap)).find? (fun d => d.id = c.id) =
      some c := by
  obtain ⟨hbegins, -⟩ := memory_shape (mem_of_find?_eq_some hc)
  have hother : (otherCandidates scoring budget snap).filter (fun d => d.id = c.id) = [] :=
    filter_eq_nil_iff.mpr fun d hd hid =>
      other_not_memory hd (of_decide_eq_true hid ▸ hbegins)
  have hhistory : (historyCandidate scoring snap).toList.filter (fun d => d.id = c.id) = [] := by
    refine filter_eq_nil_iff.mpr fun d hd hid => ?_
    rw [Option.mem_toList, historyCandidate] at hd
    split at hd
    · cases hd
      have heq : "history:window".toList = c.id := of_decide_eq_true hid
      exact history_not_memory (heq ▸ hbegins)
    · cases hd
  have hinventory : (inventory scoring budget snap).filter (fun d => d.id = c.id) = [c] := by
    have hmemory := filter_firstSeen (fun d : ContextCandidate S => d.id) c.id []
      (memoryCandidates scoring budget snap)
    rw [if_neg not_mem_nil, hc] at hmemory
    rw [inventory_eq, filter_append, filter_append, hother, hhistory, hmemory]
    rfl
  have hsorted := (sortByKey_perm (sortKey scoring) (inventory scoring budget snap)).filter
    fun d => decide (d.id = c.id)
  rw [hinventory, perm_singleton] at hsorted
  rw [← head?_filter, hsorted]
  rfl

theorem exists_selected
    (hc : (memoryCandidates scoring budget snap).find? (fun d => d.id = c.id) = some c) :
    ∃ d ∈ selection scoring budget snap,
      d = c ∨ c.disposition = .included ∧ d = c.asTruncated := by
  have hranked : c ∈ ranked scoring budget snap :=
    mem_markSeen (find_inventory hc) not_mem_nil
  exact exists_of_mem_forall₂ (applyQuotas_forall₂ budget _ _ _).flip hranked

omit [LinearOrder S] in
theorem asTruncated_inj {c d : ContextCandidate S} (hc : c.disposition = .included)
    (hd : d.disposition = .included) (h : c.asTruncated = d.asTruncated) : c = d := by
  have hback : ∀ e : ContextCandidate S, e.disposition = .included →
      e = { e.asTruncated with disposition := .included, reasons := e.asTruncated.reasons.tail } :=
    fun e he => by
      rw [← he]
      rfl
  rw [hback c hc, hback d hd, h]

theorem memory_eq {snap₁ snap₂ : ContextInventorySnapshot S} {c₁ c₂ : ContextCandidate S}
    (hselection : selection scoring budget snap₁ = selection scoring budget snap₂)
    (hid : c₁.id = c₂.id)
    (hc₁ : (memoryCandidates scoring budget snap₁).find? (fun d => d.id = c₁.id) = some c₁)
    (hc₂ : (memoryCandidates scoring budget snap₂).find? (fun d => d.id = c₂.id) = some c₂) :
    c₁ = c₂ := by
  obtain ⟨d₁, hd₁, hcase₁⟩ := exists_selected hc₁
  obtain ⟨d₂, hd₂, hcase₂⟩ := exists_selected hc₂
  obtain ⟨-, r₁, hr₁⟩ := memory_shape (mem_of_find?_eq_some hc₁)
  obtain ⟨-, r₂, hr₂⟩ := memory_shape (mem_of_find?_eq_some hc₂)
  have hsame : d₁ = d₂ := by
    by_contra hne
    -- of two with one id the later would be a repeat, which no memory of the inventory is
    have hid' : d₁.id = d₂.id := by
      rcases hcase₁ with rfl | ⟨-, rfl⟩ <;> rcases hcase₂ with rfl | ⟨-, rfl⟩ <;> exact hid
    have hnot : ∀ {c d : ContextCandidate S} {r}, c.reasons = [.memoryKindEligible, r] →
        (d = c ∨ c.disposition = .included ∧ d = c.asTruncated) → ¬ IsRepeat d := by
      rintro c d r hr (rfl | ⟨-, rfl⟩) hrepeat
      · have h := hr.symm.trans hrepeat.2
        cases h
      · cases hrepeat.1
    rw [hselection] at hd₁
    rcases pairwise_either (selection_firstOfIds scoring budget snap₂) hd₁ hd₂ hne with h | h
    · exact hnot hr₂ hcase₂ (h hid')
    · exact hnot hr₁ hcase₁ (h hid'.symm)
  subst hsame
  rcases hcase₁ with rfl | ⟨hincluded₁, rfl⟩
  · rcases hcase₂ with h | ⟨-, h⟩
    · exact h
    · rw [h] at hr₁
      cases hr₁
  · rcases hcase₂ with h | ⟨hincluded₂, h⟩
    · rw [← h] at hr₂
      cases hr₂
    · exact asTruncated_inj hincluded₁ hincluded₂ h

theorem find_hit_first {hit : MemoryHitSnapshot S} {hits : List (MemoryHitSnapshot S)} :
    (memoryCandidates scoring budget { snap with memoryHits := hit :: hits }).find?
      (fun c => c.id = (hitCandidate scoring budget snap hit).id) =
        some (hitCandidate scoring budget snap hit) :=
  find?_cons_of_pos (decide_eq_true rfl)

theorem find_record_first {rec : MemoryRecordSnapshot} {records : List MemoryRecordSnapshot}
    (hactive : rec.status = .active)
    (hhits : ∀ hit ∈ snap.memoryHits, normalizeMemoryId hit.id ≠ normalizeMemoryId rec.id) :
    (memoryCandidates scoring budget { snap with memoryRecords := rec :: records }).find?
      (fun c => c.id = (recordCandidate scoring budget snap rec).id) =
        some (recordCandidate scoring budget snap rec) := by
  have hnone : (snap.memoryHits.map (hitCandidate scoring budget snap)).find?
      (fun c => c.id = (recordCandidate scoring budget snap rec).id) = none := by
    refine find?_eq_none.mpr fun c hc hid => ?_
    obtain ⟨hit, hmem, rfl⟩ := mem_map.mp hc
    exact hhits hit hmem (of_decide_eq_true hid)
  have hfilter : (rec :: records).filter (fun rec => rec.status = .active) =
      rec :: records.filter fun rec => rec.status = .active :=
    filter_cons_of_pos (decide_eq_true hactive)
  unfold memoryCandidates
  rw [hfilter, find?_append]
  refine Eq.trans (congrArg (fun o => Option.or o _) hnone) ?_
  exact find?_cons_of_pos
    (p := fun c : ContextCandidate S => decide (c.id = (recordCandidate scoring budget snap rec).id))
    (decide_eq_true rfl)

/-- With nothing cut, only agreement makes the order immaterial. -/
theorem OrderFree.entriesAgree {strategy : RelevanceStrategy}
    (h : OrderFree scoring budget snap strategy)
    (hcap : (buildContextPlan scoring snap budget strategy).candidatesDiscovered ≤
      maxPlanCandidates) : EntriesAgree scoring budget snap := by
  have hsame : ∀ snap₁ snap₂, Reordered snap snap₁ → Reordered snap snap₂ →
      selection scoring budget snap₁ = selection scoring budget snap₂ :=
    fun _ _ h₁ h₂ => (h.selection_eq hcap h₁).trans (h.selection_eq hcap h₂).symm
  constructor
  case memoryHits =>
    intro a ha b hb hid
    obtain ⟨resta, hpa⟩ := exists_front ha
    obtain ⟨restb, hpb⟩ := exists_front hb
    exact memory_eq (hsame { snap with memoryHits := a :: resta } { snap with memoryHits := b :: restb }
      ⟨hpa, .refl _, .refl _, .refl _, .refl _, .refl _, rfl⟩
      ⟨hpb, .refl _, .refl _, .refl _, .refl _, .refl _, rfl⟩) hid find_hit_first find_hit_first
  case memoryRecords =>
    intro a ha b hb hactive hactive' hid hhits
    obtain ⟨resta, hpa⟩ := exists_front ha
    obtain ⟨restb, hpb⟩ := exists_front hb
    exact memory_eq (hsame { snap with memoryRecords := a :: resta }
      { snap with memoryRecords := b :: restb }
      ⟨.refl _, hpa, .refl _, .refl _, .refl _, .refl _, rfl⟩
      ⟨.refl _, hpb, .refl _, .refl _, .refl _, .refl _, rfl⟩) hid
      (find_record_first hactive hhits) (find_record_first hactive' (hid ▸ hhits))
  case attachments =>
    intro a ha b hb hpath hscore
    obtain ⟨snap₁, hr₁, hl₁⟩ := leads_attachment scoring budget ha
    obtain ⟨snap₂, hr₂, hl₂⟩ := leads_attachment scoring budget hb
    have hplain := hl₁.plain_eq hl₂ (hsame snap₁ snap₂ hr₁ hr₂)
      (sortKey_eq_iff.mpr ⟨rfl, hscore, congrArg ("attach:".toList ++ ·) hpath⟩)
    exact ⟨congrArg (·.label) hplain, congrArg (·.estimatedChars) hplain,
      congrArg (·.snippet) hplain⟩
  case workspaceHits =>
    intro a ha b hb hpath hscore
    obtain ⟨snap₁, hr₁, hl₁⟩ := leads_workspaceHit scoring budget ha
    obtain ⟨snap₂, hr₂, hl₂⟩ := leads_workspaceHit scoring budget hb
    have hplain := hl₁.plain_eq hl₂ (hsame snap₁ snap₂ hr₁ hr₂)
      (sortKey_eq_iff.mpr ⟨rfl, hscore, congrArg ("workspace:".toList ++ ·) hpath⟩)
    have hchars : min a.snippet.length 400 + byteLen a.path =
        min b.snippet.length 400 + byteLen b.path := congrArg (·.estimatedChars) hplain
    rw [hpath] at hchars
    exact ⟨Nat.add_right_cancel hchars, Option.some.inj (congrArg (·.snippet) hplain)⟩
  case pinnedSkills =>
    intro a ha b hb hid
    obtain ⟨snap₁, hr₁, hl₁⟩ := leads_skill scoring budget ha
    obtain ⟨snap₂, hr₂, hl₂⟩ := leads_skill scoring budget hb
    have hplain := hl₁.plain_eq hl₂ (hsame snap₁ snap₂ hr₁ hr₂)
      (sortKey_eq_iff.mpr ⟨rfl, rfl, congrArg ("skill:".toList ++ ·) hid⟩)
    exact ⟨congrArg (·.label) hplain, Nat.add_right_cancel (congrArg (·.estimatedChars) hplain),
      Option.some.inj (congrArg (·.snippet) hplain)⟩

/-- Agreement is enough, and where the cap cuts nothing the plan is free of the order of discovery
exactly when the entries agree. -/
theorem orderFree_iff (strategy : RelevanceStrategy) :
    (EntriesAgree scoring budget snap → OrderFree scoring budget snap strategy) ∧
      ((buildContextPlan scoring snap budget strategy).candidatesDiscovered ≤ maxPlanCandidates →
        (OrderFree scoring budget snap strategy ↔ EntriesAgree scoring budget snap)) :=
  ⟨fun h => h.orderFree strategy, fun hcap =>
    ⟨fun h => h.entriesAgree hcap, fun h => h.orderFree strategy⟩⟩

theorem length_selection : (selection scoring budget snap).length =
    (inventory scoring budget snap).length :=
  (applyQuotas_forall₂ budget _ _ _).length_eq.symm.trans
    ((markSeen_forall₂ _ _ _ _).length_eq.symm.trans (sortByKey_perm _ _).length_eq)

/-- Two passages of one file with the best score. -/
def twoPassages : ContextInventorySnapshot ℚ where
  userText := "pool".toList
  workspaceHits :=
    [⟨"a.md".toList, "pool size".toList, some 1⟩, ⟨"a.md".toList, "pool time".toList, some 1⟩]

theorem passages_order_matters :
    ¬ OrderFree asciiScoring defaultBudget twoPassages .deterministicOnly := by
  intro h
  have hcap : (buildContextPlan asciiScoring twoPassages defaultBudget
      .deterministicOnly).candidatesDiscovered ≤ maxPlanCandidates := by
    refine le_of_eq_of_le (@length_selection ℚ _ asciiScoring defaultBudget twoPassages) ?_
    decide +kernel
  have hagree := (h.entriesAgree hcap).workspaceHits _ mem_cons_self _
    (mem_cons_of_mem _ mem_cons_self) rfl (by decide +kernel)
  exact absurd hagree.2 (by decide)

end ContextDesk.Planning
