import ContextDesk.ContextSelection

/-!
# Model relevance

`apply_model_relevance` takes the ids that a model ranked, promotes what the plan had left out as
irrelevant or weak while the budget lasts, and demotes weak memories that the model did not rank
among the first eight. It looks at the first reason of a candidate only, and the first reason of a
memory is that its kind is eligible: no memory is ever promoted (`promotes_iff`).
-/

namespace ContextDesk.Planning

open Lib Memory List

variable {S : Type}

def ContextCandidate.asPromoted (c : ContextCandidate S) : ContextCandidate S :=
  { c with disposition := .included, reasons := .includedByModelRelevance :: c.reasons }

def ContextCandidate.asConfirmed (c : ContextCandidate S) : ContextCandidate S :=
  { c with reasons := c.reasons ++ [.includedByModelRelevance] }

def ContextCandidate.asDemoted (c : ContextCandidate S) : ContextCandidate S :=
  { c with disposition := .excluded, reasons := .excludedByModelRelevance :: c.reasons }

def ContextCandidate.asFailedClosed (c : ContextCandidate S) : ContextCandidate S :=
  { c with reasons := c.reasons ++ [.relevanceFailedClosed] }

/-- Excluded, and irrelevance or a low score is the first reason. -/
def ready (c : ContextCandidate S) : Bool :=
  c.disposition = .excluded && (c.reasons.head? = some .excludedIrrelevant ||
    c.reasons.head? = some .excludedLowScore)

/-- The turn of one ranked id, with the characters used so far. -/
def promote (budget : Nat) (state : List (ContextCandidate S) × Nat) (id : Text) :
    List (ContextCandidate S) × Nat :=
  match state.1.find? fun c => c.id = id with
  | none => state
  | some c =>
    if ready c ∧ state.2 + c.estimatedChars ≤ budget then
      (updateFirst (fun c => c.id = id) ContextCandidate.asPromoted state.1,
        state.2 + c.estimatedChars)
    else if c.disposition = .included then
      (updateFirst (fun c => c.id = id) ContextCandidate.asConfirmed state.1, state.2)
    else state

def validIds (candidates : List (ContextCandidate S)) (order : List Text) : List Text :=
  order.filter fun id => id ∈ candidates.map (·.id)

variable [LinearOrder S]

def demote (scoring : Scoring S) (valid : List Text) (c : ContextCandidate S) :
    ContextCandidate S :=
  if c.disposition = .included ∧ c.family = .durableMemory ∧ c.id ∉ valid.take 8 ∧
      3 ≤ valid.length ∧ c.score.getD scoring.zero < scoring.demoteBelow then
    c.asDemoted
  else c

def applyModelRelevance (scoring : Scoring S) (plan : ContextPlan S)
    (rankedIds : Option (List Text)) : ContextPlan S :=
  let plan := { plan with strategy := .optionalModelRerank }
  match rankedIds with
  | none =>
    { plan with
      relevanceFailedClosed := true
      candidates := plan.candidates.modifyHead ContextCandidate.asFailedClosed }
  | some order =>
    if order = [] then { plan with relevanceFailedClosed := true }
    else
      let valid := validIds plan.candidates order
      if valid = [] then { plan with relevanceFailedClosed := true }
      else
        let promoted := valid.foldl (promote plan.globalCharBudget)
          (plan.candidates, plan.includedChars)
        let candidates := promoted.1.map (demote scoring valid)
        { plan with
          modelRelevanceUsed := true
          includedChars := charsOf (included candidates)
          candidates
          contextUsedSummary := buildContextUsedSummary candidates }

/-! ## One turn -/

section Turn

omit [LinearOrder S]

variable {candidates : List (ContextCandidate S)}

theorem exists_first_with_id {id : Text} (h : ∃ c ∈ candidates, c.id = id) :
    ∃ c front back, candidates = front ++ c :: back ∧ c.id = id ∧ ∀ d ∈ front, d.id ≠ c.id := by
  induction candidates with
  | nil => exact absurd h (by simp)
  | cons a l ih =>
    by_cases ha : a.id = id
    · exact ⟨a, [], l, rfl, ha, nofun⟩
    · have hl : ∃ c ∈ l, c.id = id := by
        obtain ⟨c, hc, hid⟩ := h
        exact ⟨c, (mem_cons.mp hc).resolve_left fun heq => ha (heq ▸ hid), hid⟩
      obtain ⟨c, front, back, rfl, hid, hfront⟩ := ih hl
      refine ⟨c, a :: front, back, rfl, hid, fun d hd => ?_⟩
      rcases mem_cons.mp hd with rfl | hd
      · exact hid ▸ ha
      · exact hfront d hd

theorem promote_cases (budget : Nat) (state : List (ContextCandidate S) × Nat) (id : Text) :
    ((∀ c ∈ state.1, c.id ≠ id) ∧ promote budget state id = state) ∨
      ∃ front c back, state.1 = front ++ c :: back ∧ (∀ d ∈ front, d.id ≠ id) ∧ c.id = id ∧
        ((ready c = true ∧ state.2 + c.estimatedChars ≤ budget ∧
            promote budget state id =
              (front ++ c.asPromoted :: back, state.2 + c.estimatedChars)) ∨
          (c.disposition = .included ∧
            promote budget state id = (front ++ c.asConfirmed :: back, state.2)) ∨
          (¬ (ready c = true ∧ state.2 + c.estimatedChars ≤ budget) ∧
            c.disposition ≠ .included ∧ promote budget state id = state)) := by
  unfold promote
  cases hfind : state.1.find? fun c => c.id = id with
  | none =>
    refine .inl ⟨fun c hc hid => ?_, rfl⟩
    exact find?_eq_none.mp hfind c hc (decide_eq_true hid)
  | some c =>
    obtain ⟨hid, front, back, hsplit, hfront⟩ := find?_eq_some_iff_append.mp hfind
    have hne : ∀ d ∈ front, d.id ≠ id := fun d hd heq => by
      have h := hfront d hd
      rw [decide_eq_true heq] at h
      cases h
    have hupdate : ∀ f, updateFirst (fun c => decide (c.id = id)) f state.1 =
        front ++ f c :: back := fun f => by
      rw [hsplit]
      exact updateFirst_split (fun d hd => decide_eq_false (hne d hd)) hid
    refine .inr ⟨front, c, back, hsplit, hne, of_decide_eq_true hid, ?_⟩
    dsimp only
    by_cases hready : ready c = true ∧ state.2 + c.estimatedChars ≤ budget
    · rw [if_pos hready, hupdate]
      exact .inl ⟨hready.1, hready.2, rfl⟩
    · rw [if_neg hready]
      by_cases hincluded : c.disposition = .included
      · rw [if_pos hincluded, hupdate]
        exact .inr (.inl ⟨hincluded, rfl⟩)
      · rw [if_neg hincluded]
        exact .inr (.inr ⟨hready, hincluded, rfl⟩)

theorem included_append (l l' : List (ContextCandidate S)) :
    included (l ++ l') = included l ++ included l' := filter_append l l'

theorem charsOf_append (l l' : List (ContextCandidate S)) :
    charsOf (l ++ l') = charsOf l + charsOf l' := by
  unfold charsOf
  rw [map_append, sum_append]

variable {c : ContextCandidate S}

theorem ready_not_included (h : ready c = true) : c.disposition = .excluded := by
  unfold ready at h
  rw [Bool.and_eq_true, decide_eq_true_eq] at h
  exact h.1

theorem promote_total {budget : Nat} {state : List (ContextCandidate S) × Nat} (id : Text)
    (h : charsOf (included state.1) = state.2) :
    charsOf (included (promote budget state id).1) = (promote budget state id).2 ∧
      (promote budget state id).2 ≤ max budget state.2 := by
  rcases promote_cases budget state id with ⟨-, heq⟩ |
    ⟨front, c, back, hsplit, -, -, hcase⟩
  · rw [heq]
    exact ⟨h, le_max_right _ _⟩
  · rw [hsplit, included_append, charsOf_append, included_cons] at h
    rcases hcase with ⟨hready, hfits, heq⟩ | ⟨hincluded, heq⟩ | ⟨-, -, heq⟩
    · rw [if_neg (by rw [ready_not_included hready]; exact nofun)] at h
      have hin : c.asPromoted.disposition = .included := rfl
      rw [heq, included_append, charsOf_append, included_cons, if_pos hin, charsOf_cons]
      have hchars : c.asPromoted.estimatedChars = c.estimatedChars := rfl
      dsimp only
      omega
    · rw [if_pos hincluded, charsOf_cons] at h
      have hin : c.asConfirmed.disposition = .included := hincluded
      rw [heq, included_append, charsOf_append, included_cons, if_pos hin, charsOf_cons]
      have hchars : c.asConfirmed.estimatedChars = c.estimatedChars := rfl
      dsimp only
      omega
    · rw [heq, hsplit, included_append, charsOf_append, included_cons]
      exact ⟨h, le_max_right _ _⟩

theorem foldl_promote_total {budget : Nat} (ids : List Text)
    {state : List (ContextCandidate S) × Nat} (h : charsOf (included state.1) = state.2) :
    charsOf (included (ids.foldl (promote budget) state).1) ≤ max budget state.2 := by
  induction ids generalizing state with
  | nil => exact h ▸ le_max_right _ _
  | cons id ids ih =>
    obtain ⟨htotal, hbound⟩ := @promote_total _ budget _ id h
    have hrest := ih htotal
    rw [foldl_cons]
    omega

/-! ## Whom the turns promote -/

/-- One turn for whoever is eligible: the ids chosen so far and the characters used. -/
def allot (eligible : ContextCandidate S → Bool) (budget : Nat)
    (candidates : List (ContextCandidate S)) (state : List Text × Nat) (id : Text) :
    List Text × Nat :=
  match candidates.find? fun c => c.id = id && eligible c with
  | none => state
  | some c =>
    if id ∉ state.1 ∧ state.2 + c.estimatedChars ≤ budget then
      (id :: state.1, state.2 + c.estimatedChars)
    else state

/-- A candidate after some turns: one that is ready is included once its id is chosen. -/
structure Turned (chosen : List Text) (c d : ContextCandidate S) : Prop where
  same : d = { c with disposition := d.disposition, reasons := d.reasons }
  stays : c.disposition = .included → d.disposition = .included
  taken : ready c = true → c.id ∈ chosen → d.disposition = .included
  other : c.disposition ≠ .included → ¬ (ready c = true ∧ c.id ∈ chosen) → d = c

theorem Turned.id_eq {chosen : List Text} {d : ContextCandidate S} (h : Turned chosen c d) :
    d.id = c.id := congrArg (·.id) h.same

theorem Turned.refl (c : ContextCandidate S) : Turned [] c c where
  same := rfl
  stays := id
  taken := nofun
  other _ _ := rfl

theorem Turned.cons {chosen : List Text} {c d : ContextCandidate S} (h : Turned chosen c d)
    {id : Text} (hid : c.id ≠ id ∨ ready c = false) : Turned (id :: chosen) c d where
  same := h.same
  stays := h.stays
  taken hready hmem := by
    rcases hid with hid | hid
    · exact h.taken hready ((mem_cons.mp hmem).resolve_left hid)
    · rw [hid] at hready
      cases hready
  other hne hnot := h.other hne fun hboth => hnot ⟨hboth.1, mem_cons_of_mem _ hboth.2⟩

theorem not_ready_of_repeat (h : IsRepeat c) : ready c = false := by
  unfold ready
  rw [h.2]
  exact Bool.and_false _

/-- The first with an id decides who is eligible under it. -/
theorem allot_split {eligible : ContextCandidate S → Bool}
    (hrepeat : ∀ c, IsRepeat c → eligible c = false) {front back : List (ContextCandidate S)}
    (hfirst : FirstOfIds (front ++ c :: back)) (hfront : ∀ d ∈ front, d.id ≠ c.id) (budget : Nat)
    (state : List Text × Nat) :
    allot eligible budget (front ++ c :: back) state c.id =
      if eligible c = true ∧ c.id ∉ state.1 ∧ state.2 + c.estimatedChars ≤ budget then
        (c.id :: state.1, state.2 + c.estimatedChars)
      else state := by
  unfold allot
  by_cases heligible : eligible c = true
  · have hfind : (front ++ c :: back).find? (fun d => d.id = c.id && eligible d) = some c := by
      refine find?_eq_some_iff_append.mpr ⟨?_, front, back, rfl, fun d hd => ?_⟩
      · rw [decide_eq_true rfl, heligible]
        rfl
      · rw [decide_eq_false (hfront d hd)]
        rfl
    rw [hfind]
    dsimp only
    by_cases hfits : c.id ∉ state.1 ∧ state.2 + c.estimatedChars ≤ budget
    · rw [if_pos hfits, if_pos ⟨heligible, hfits⟩]
    · rw [if_neg hfits, if_neg fun h => hfits h.2]
  · have hback := (pairwise_cons.mp (pairwise_append.mp hfirst).2.1).1
    have hfind : (front ++ c :: back).find? (fun d => d.id = c.id && eligible d) = none := by
      refine find?_eq_none.mpr fun d hd hboth => ?_
      rw [Bool.and_eq_true, decide_eq_true_eq] at hboth
      rcases mem_append.mp hd with hd | hd
      · exact hfront d hd hboth.1
      · rcases mem_cons.mp hd with rfl | hd
        · exact heligible hboth.2
        · rw [hrepeat d (hback d hd hboth.1.symm)] at hboth
          cases hboth.2
    rw [hfind, if_neg fun h => heligible h.1]

theorem allot_unknown {eligible : ContextCandidate S → Bool} {budget : Nat}
    {state : List Text × Nat} {id : Text} (h : ∀ c ∈ candidates, c.id ≠ id) :
    allot eligible budget candidates state id = state := by
  have hfind : candidates.find? (fun c => c.id = id && eligible c) = none := by
    refine find?_eq_none.mpr fun c hc hboth => ?_
    rw [Bool.and_eq_true, decide_eq_true_eq] at hboth
    exact h c hc hboth.1
  unfold allot
  rw [hfind]

/-- The turns of the code are those for whoever is ready. -/
theorem promote_allot (hfirst : FirstOfIds candidates) (budget : Nat)
    {state : List (ContextCandidate S) × Nat} {chosen : List Text × Nat}
    (hturned : Forall₂ (Turned chosen.1) candidates state.1) (hused : state.2 = chosen.2)
    (id : Text) :
    Forall₂ (Turned (allot ready budget candidates chosen id).1) candidates
        (promote budget state id).1 ∧
      (promote budget state id).2 = (allot ready budget candidates chosen id).2 := by
  rcases promote_cases budget state id with ⟨hnone, heq⟩ |
    ⟨front, d, back, hsplit, hfront, hid, hcase⟩
  · have hallot : allot ready budget candidates chosen id = chosen := by
      refine allot_unknown fun c hc hid => ?_
      obtain ⟨d, hd, hT⟩ := exists_of_mem_forall₂ hturned.flip hc
      exact hnone d hd (hT.id_eq.trans hid)
    rw [heq, hallot]
    exact ⟨hturned, hused⟩
  · rw [hsplit] at hturned
    obtain ⟨front', c, back', rfl, hfronts, hT, hbacks⟩ := forall₂_split hturned
    have hcid : c.id = id := hT.id_eq.symm.trans hid
    subst hcid
    have hfront' : ∀ e ∈ front', e.id ≠ c.id := fun e he heq => by
      obtain ⟨e', he', hTe⟩ := exists_of_mem_forall₂ hfronts.flip he
      exact hfront e' he' (hTe.id_eq.trans heq)
    rw [allot_split (fun _ => not_ready_of_repeat) hfirst hfront']
    have hback := (pairwise_cons.mp (pairwise_append.mp hfirst).2.1).1
    by_cases hready : ready c = true ∧ c.id ∉ chosen.1
    · -- not yet chosen, so as it was
      have hdc : d = c := hT.other (by rw [ready_not_included hready.1]; exact nofun)
        fun hboth => hready.2 hboth.2
      subst hdc
      rcases hcase with ⟨-, hfits, heq⟩ | ⟨hincluded, -⟩ | ⟨hnot, -, heq⟩
      · rw [hused] at hfits
        rw [if_pos ⟨hready.1, hready.2, hfits⟩, heq, hused]
        refine ⟨forall₂_join ?_ ?_ ?_, rfl⟩
        · exact forall₂_imp_of_mem hfronts fun e he e' hTe => hTe.cons (.inl (hfront' e he))
        · exact ⟨rfl, fun _ => rfl, fun _ _ => rfl, fun _ hnot => absurd
            ⟨hready.1, mem_cons_self⟩ hnot⟩
        · refine forall₂_imp_of_mem hbacks fun e he e' hTe => hTe.cons ?_
          by_cases heid : d.id = e.id
          · exact .inr (not_ready_of_repeat (hback e he heid))
          · exact .inl (Ne.symm heid)
      · rw [ready_not_included hready.1] at hincluded
        cases hincluded
      · rw [hused] at hnot
        rw [if_neg fun h => hnot ⟨h.1, h.2.2⟩, heq, hsplit]
        exact ⟨hturned, hused⟩
    · rw [if_neg fun h => hready ⟨h.1, h.2.1⟩]
      rcases hcase with ⟨hd, -, -⟩ | ⟨hincluded, heq⟩ | ⟨-, -, heq⟩
      · -- one that is ready now was so at the start, and was chosen since
        have hexcluded := ready_not_included hd
        have hnot : d.disposition ≠ .included := by rw [hexcluded]; exact nofun
        have hdc : d = c := hT.other (fun h => hnot (hT.stays h))
          fun hboth => hnot (hT.taken hboth.1 hboth.2)
        subst hdc
        have hmem : d.id ∈ chosen.1 := by
          by_contra hmem
          exact hready ⟨hd, hmem⟩
        exact absurd (hT.taken hd hmem) hnot
      · rw [heq]
        refine ⟨forall₂_join hfronts ⟨?_, fun _ => hincluded, fun _ _ => hincluded, ?_⟩ hbacks,
          hused⟩
        · rw [hT.same]
          rfl
        · intro hne hnot
          rw [hT.other hne hnot] at hincluded
          exact absurd hincluded hne
      · rw [heq, hsplit]
        exact ⟨hturned, hused⟩

theorem foldl_promote_allot {candidates : List (ContextCandidate S)}
    (hfirst : FirstOfIds candidates) (budget : Nat) (ids : List Text)
    {state : List (ContextCandidate S) × Nat} {chosen : List Text × Nat}
    (hturned : Forall₂ (Turned chosen.1) candidates state.1) (hused : state.2 = chosen.2) :
    Forall₂ (Turned (ids.foldl (allot ready budget candidates) chosen).1) candidates
      (ids.foldl (promote budget) state).1 := by
  induction ids generalizing state chosen with
  | nil => exact hturned
  | cons id ids ih =>
    obtain ⟨hnext, htotal⟩ := promote_allot hfirst budget hturned hused id
    exact ih hnext htotal

/-- The ids chosen when whoever is eligible has a turn, in the order of the ranking. -/
def chosenIds (eligible : ContextCandidate S → Bool) (plan : ContextPlan S) (order : List Text) :
    List Text :=
  ((validIds plan.candidates order).foldl
    (allot eligible plan.globalCharBudget plan.candidates) ([], plan.includedChars)).1

/-- What becomes of a candidate whose id may be chosen. -/
structure Weighed (chosen : List Text) (c d : ContextCandidate S) : Prop where
  same : d = { c with disposition := d.disposition, reasons := d.reasons }
  comes : d.disposition = .included →
    c.disposition = .included ∨ (ready c = true ∧ c.id ∈ chosen)
  taken : ready c = true → c.id ∈ chosen → c.family ≠ .durableMemory → d.disposition = .included

theorem weighed_of_reasons {d : ContextCandidate S} (hd : d = { c with reasons := d.reasons }) :
    Weighed [] c d where
  same := by rw [hd]
  comes h := by
    rw [hd] at h
    exact .inl h
  taken _ h _ := absurd h not_mem_nil

end Turn

theorem demote_cases (scoring : Scoring S) (valid : List Text) (c : ContextCandidate S) :
    demote scoring valid c = c ∨
      (c.family = .durableMemory ∧ demote scoring valid c = c.asDemoted) := by
  unfold demote
  split_ifs with h
  · exact .inr ⟨h.2.1, rfl⟩
  · exact .inl rfl

theorem Turned.demote {scoring : Scoring S} {valid chosen : List Text}
    {c d : ContextCandidate S} (h : Turned chosen c d) :
    Weighed chosen c (demote scoring valid d) := by
  have hcomes : d.disposition = .included →
      c.disposition = .included ∨ (ready c = true ∧ c.id ∈ chosen) := by
    intro hd
    by_contra hnot
    rw [not_or] at hnot
    rw [h.other hnot.1 hnot.2] at hd
    exact hnot.1 hd
  rcases demote_cases scoring valid d with heq | ⟨hmemory, heq⟩
  · rw [heq]
    exact ⟨h.same, hcomes, fun hready hmem _ => h.taken hready hmem⟩
  · rw [heq]
    refine ⟨?_, nofun, fun _ _ hfamily => ?_⟩
    · unfold ContextCandidate.asDemoted
      rw [h.same]
    · rw [h.same] at hmemory
      exact absurd hmemory hfamily

theorem charsOf_demote (scoring : Scoring S) (valid : List Text) (l : List (ContextCandidate S)) :
    charsOf (included (l.map (demote scoring valid))) ≤ charsOf (included l) := by
  induction l with
  | nil => exact le_refl _
  | cons c l ih =>
    rw [map_cons, included_cons, included_cons]
    rcases demote_cases scoring valid c with heq | ⟨-, heq⟩
    · rw [heq]
      split_ifs
      · rw [charsOf_cons, charsOf_cons]
        omega
      · exact ih
    · rw [heq, if_neg nofun]
      split_ifs
      · rw [charsOf_cons]
        omega
      · exact ih

/-! ## The whole stage -/

omit [LinearOrder S] in
theorem reasons_modifyHead (l : List (ContextCandidate S)) :
    Forall₂ (fun c d => d = { c with reasons := d.reasons }) l
      (l.modifyHead ContextCandidate.asFailedClosed) := by
  cases l with
  | nil => exact .nil
  | cons c l => exact .cons rfl (forall₂_same.mpr fun _ _ => rfl)

theorem relevance_failsClosed (scoring : Scoring S) (plan : ContextPlan S)
    {rankedIds : Option (List Text)}
    (h : ∀ order, rankedIds = some order → validIds plan.candidates order = []) :
    (applyModelRelevance scoring plan rankedIds).includedChars = plan.includedChars ∧
      Forall₂ (fun c d => d = { c with reasons := d.reasons }) plan.candidates
        (applyModelRelevance scoring plan rankedIds).candidates := by
  have hsame : Forall₂ (fun c d => d = { c with reasons := d.reasons }) plan.candidates
      plan.candidates := forall₂_same.mpr fun _ _ => rfl
  cases rankedIds with
  | none => exact ⟨rfl, reasons_modifyHead plan.candidates⟩
  | some order =>
    unfold applyModelRelevance
    dsimp only
    by_cases horder : order = []
    · rw [if_pos horder]
      exact ⟨rfl, hsame⟩
    · rw [if_neg horder, if_pos (h order rfl)]
      exact ⟨rfl, hsame⟩

theorem relevance_ranks (scoring : Scoring S) (plan : ContextPlan S) {order : List Text}
    (h : validIds plan.candidates order ≠ []) :
    (applyModelRelevance scoring plan (some order)).candidates =
        ((validIds plan.candidates order).foldl (promote plan.globalCharBudget)
          (plan.candidates, plan.includedChars)).1.map
            (demote scoring (validIds plan.candidates order)) ∧
      (applyModelRelevance scoring plan (some order)).includedChars =
        charsOf (included (applyModelRelevance scoring plan (some order)).candidates) := by
  have horder : order ≠ [] := fun heq => h (by rw [heq]; rfl)
  unfold applyModelRelevance
  dsimp only
  rw [if_neg horder, if_neg h]
  exact ⟨rfl, rfl⟩

theorem relevance_weighed (scoring : Scoring S) {plan : ContextPlan S}
    (hfirst : FirstOfIds plan.candidates) (order : List Text) :
    Forall₂ (Weighed (chosenIds ready plan order)) plan.candidates
      (applyModelRelevance scoring plan (some order)).candidates := by
  by_cases hvalid : validIds plan.candidates order = []
  · have hnone : chosenIds ready plan order = [] := by
      unfold chosenIds
      rw [hvalid]
      rfl
    rw [hnone]
    refine (relevance_failsClosed scoring plan fun order' heq => ?_).2.imp
      fun _ _ => weighed_of_reasons
    cases heq
    exact hvalid
  · rw [(relevance_ranks scoring plan hvalid).1, forall₂_map_right_iff]
    have hstart : Forall₂ (Turned []) plan.candidates plan.candidates :=
      forall₂_same.mpr fun c _ => Turned.refl c
    exact (@foldl_promote_allot _ _ hfirst plan.globalCharBudget _
      (plan.candidates, plan.includedChars) ([], plan.includedChars) hstart rfl).imp
      fun _ _ => Turned.demote

section Plan

variable (scoring : Scoring S) (snap : ContextInventorySnapshot S) (budget : ContextPlanBudget S)
  (strategy : RelevanceStrategy)

omit [LinearOrder S] in
theorem ready_of_reasoned {c : ContextCandidate S} (h : Reasoned c) (hready : ready c = true) :
    c.family ≠ .durableMemory ∧ c.reasons = [.excludedIrrelevant] := by
  have hexcluded := ready_not_included hready
  unfold Reasoned at h
  rw [hexcluded] at h
  unfold ready at hready
  rcases h with h | ⟨-, r, h⟩ | h
  · rw [h] at hready
    simp at hready
  · rw [h] at hready
    simp at hready
  · exact h

/-- What was left out for another reason than irrelevance or a low score. -/
def Deliberate (c : ContextCandidate S) : Prop :=
  c.disposition = .deferred ∨ c.disposition = .truncated ∨ .excludedEcho ∈ c.reasons ∨
    .excludedDuplicate ∈ c.reasons

omit [LinearOrder S] in
theorem Deliberate.stays {chosen : List Text} {c d : ContextCandidate S} (hreasoned : Reasoned c)
    (h : Deliberate c) (hweighed : Weighed chosen c d) : d.disposition ≠ .included := by
  intro hd
  rcases hweighed.comes hd with hincluded | ⟨hready, -⟩
  · unfold Reasoned at hreasoned
    rw [hincluded] at hreasoned
    rcases h with h | h | h | h
    · rw [hincluded] at h
      cases h
    · rw [hincluded] at h
      cases h
    · exact hreasoned.1 h
    · exact hreasoned.2 h
  · have hexcluded := ready_not_included hready
    rcases h with h | h | h | h
    · rw [hexcluded] at h
      cases h
    · rw [hexcluded] at h
      cases h
    · rw [(ready_of_reasoned hreasoned hready).2] at h
      exact absurd h (by decide)
    · rw [(ready_of_reasoned hreasoned hready).2] at h
      exact absurd h (by decide)

omit [LinearOrder S] in
theorem charsOf_reasons {l l' : List (ContextCandidate S)}
    (h : Forall₂ (fun c d => d = { c with reasons := d.reasons }) l l') :
    charsOf (included l') = charsOf (included l) := by
  induction h with
  | nil => rfl
  | @cons c d l l' hcd _ ih =>
    rw [included_cons, included_cons, hcd]
    dsimp only
    split_ifs
    · rw [charsOf_cons, charsOf_cons, ih]
    · exact ih

theorem relevance_chars (plan : ContextPlan S)
    (hplan : plan.includedChars = charsOf (included plan.candidates))
    (rankedIds : Option (List Text)) :
    (applyModelRelevance scoring plan rankedIds).includedChars =
        charsOf (applyModelRelevance scoring plan rankedIds).included ∧
      (applyModelRelevance scoring plan rankedIds).includedChars ≤
        max plan.globalCharBudget plan.includedChars := by
  by_cases hnone : ∀ order, rankedIds = some order → validIds plan.candidates order = []
  · obtain ⟨hchars, hreasons⟩ := relevance_failsClosed scoring plan hnone
    rw [hchars]
    exact ⟨hplan.trans (charsOf_reasons hreasons).symm, le_max_right _ _⟩
  · rw [not_forall] at hnone
    obtain ⟨order, hnone⟩ := hnone
    rw [Classical.not_imp] at hnone
    obtain ⟨rfl, hvalid⟩ := hnone
    obtain ⟨hcandidates, hchars⟩ := relevance_ranks scoring plan hvalid
    refine ⟨hchars, ?_⟩
    rw [hchars, hcandidates]
    exact (charsOf_demote scoring _ _).trans (foldl_promote_total _ hplan.symm)

theorem relevance_weighed_any (plan : ContextPlan S) (hfirst : FirstOfIds plan.candidates)
    (rankedIds : Option (List Text)) :
    ∃ chosen, Forall₂ (Weighed chosen) plan.candidates
      (applyModelRelevance scoring plan rankedIds).candidates := by
  cases rankedIds with
  | none =>
    exact ⟨[], (reasons_modifyHead plan.candidates).imp fun _ _ => weighed_of_reasons⟩
  | some order => exact ⟨_, relevance_weighed scoring hfirst order⟩

/-- Over the plan and its relevance the included text stays within the budget, and only what was
left out as irrelevant or weak comes in. -/
theorem relevance_within_budget (rankedIds : Option (List Text)) :
    let plan := buildContextPlan scoring snap budget strategy
    let after := applyModelRelevance scoring plan rankedIds
    (after.includedChars = charsOf after.included ∧
      after.includedChars ≤ max budget.globalChars (historyEstimate scoring snap)) ∧
    after.candidates.map (·.id) = plan.candidates.map (·.id) ∧
    (∀ (i : Nat) (c d : ContextCandidate S), plan.candidates[i]? = some c →
      after.candidates[i]? = some d → Deliberate c → d.disposition ≠ .included) ∧
    ((∀ order, rankedIds = some order → ∀ id ∈ order, id ∉ plan.candidates.map (·.id)) →
      after.candidates.map (·.disposition) = plan.candidates.map (·.disposition)) ∧
    ∀ family, (takenOf family plan.candidates).length ≤ budget.quota family := by
  intro plan after
  have hfirst : FirstOfIds plan.candidates := plan_firstOfIds scoring budget snap strategy
  obtain ⟨chosen, hweighed⟩ := relevance_weighed_any scoring plan hfirst rankedIds
  refine ⟨?_, ?_, ?_, ?_, plan_taken scoring budget snap strategy⟩
  · obtain ⟨hchars, hbound⟩ := relevance_chars scoring plan rfl rankedIds
    have hplan : plan.includedChars ≤ max budget.globalChars (historyEstimate scoring snap) :=
      plan_chars scoring budget snap strategy
    exact ⟨hchars, hbound.trans (max_le (le_max_left _ _) hplan)⟩
  · exact map_eq_of_forall₂ (hweighed.imp fun c d h => congrArg (·.id) h.same)
  · intro i c d hc hd hdeliberate
    have hreasoned := plan_reasoned scoring budget snap strategy c (mem_of_getElem? hc)
    exact hdeliberate.stays hreasoned (forall₂_getElem? hweighed hc hd)
  · intro hunknown
    refine map_eq_of_forall₂ ((relevance_failsClosed scoring plan fun order horder => ?_).2.imp
      fun c d h => congrArg (·.disposition) h)
    refine filter_eq_nil_iff.mpr fun id hid hknown => ?_
    exact hunknown order horder id hid (of_decide_eq_true hknown)

/-! ## Who is promoted and who was meant -/

def dropped (c : ContextCandidate S) : Bool :=
  c.disposition = .excluded &&
    (.excludedIrrelevant ∈ c.reasons || .excludedLowScore ∈ c.reasons)

/-- Promoted is exactly what was excluded for irrelevance or a low score, has its id among the known
ranked ones, and fits into the budget that remains when its turn comes. -/
def PromotesRanked (plan after : ContextPlan S) (order : List Text) : Prop :=
  ∀ (i : Nat) (c d : ContextCandidate S), plan.candidates[i]? = some c →
    after.candidates[i]? = some d →
      ((c.disposition ≠ .included ∧ d.disposition = .included) ↔
        (dropped c = true ∧ c.id ∈ chosenIds dropped plan order))

omit [LinearOrder S] in
theorem ready_iff_dropped {c : ContextCandidate S} (h : Reasoned c) :
    ready c = true ↔ dropped c = true ∧ c.family ≠ .durableMemory := by
  constructor
  · intro hready
    obtain ⟨hfamily, hreasons⟩ := ready_of_reasoned h hready
    unfold dropped
    rw [ready_not_included hready, hreasons]
    exact ⟨rfl, hfamily⟩
  · rintro ⟨hdropped, hfamily⟩
    unfold dropped at hdropped
    rw [Bool.and_eq_true, decide_eq_true_eq] at hdropped
    unfold Reasoned at h
    rw [hdropped.1] at h
    rcases h with h | ⟨hmemory, -⟩ | ⟨-, h⟩
    · rw [h] at hdropped
      exact absurd hdropped.2 (by decide)
    · exact absurd hmemory hfamily
    · unfold ready
      rw [hdropped.1, h]
      rfl

omit [LinearOrder S] in
theorem not_dropped_of_repeat {c : ContextCandidate S} (h : IsRepeat c) : dropped c = false := by
  unfold dropped
  rw [h.2]
  exact Bool.and_false _

omit [LinearOrder S] in
theorem allot_subset (eligible : ContextCandidate S → Bool) (budget : Nat)
    (candidates : List (ContextCandidate S)) (ids : List Text) (state : List Text × Nat) :
    ∀ id ∈ state.1, id ∈ (ids.foldl (allot eligible budget candidates) state).1 := by
  induction ids generalizing state with
  | nil => exact fun id hid => hid
  | cons x ids ih =>
    intro id hid
    refine ih _ id ?_
    unfold allot
    split
    · exact hid
    · split_ifs
      · exact mem_cons_of_mem _ hid
      · exact hid

omit [LinearOrder S] in
/-- While no memory is chosen, those who are ready are those who are meant. -/
theorem foldl_allot_eq {budget : Nat} {candidates : List (ContextCandidate S)}
    (hfirst : FirstOfIds candidates) (hreasoned : ∀ c ∈ candidates, Reasoned c) (ids : List Text)
    (state : List Text × Nat)
    (hnone : ∀ c ∈ candidates, c.family = .durableMemory → dropped c = true →
      c.id ∉ (ids.foldl (allot dropped budget candidates) state).1) :
    ids.foldl (allot dropped budget candidates) state =
      ids.foldl (allot ready budget candidates) state := by
  induction ids generalizing state with
  | nil => rfl
  | cons x ids ih =>
    rw [foldl_cons] at hnone ⊢
    have hstep : allot dropped budget candidates state x =
        allot ready budget candidates state x := by
      by_cases hx : ∃ c ∈ candidates, c.id = x
      · obtain ⟨c, front, back, hsplit, rfl, hfront⟩ := exists_first_with_id hx
        rw [hsplit] at hfirst hreasoned hnone ⊢
        have hmem : c ∈ front ++ c :: back := by simp
        rw [allot_split (fun _ => not_ready_of_repeat) hfirst hfront]
        rw [allot_split (fun _ => not_dropped_of_repeat) hfirst hfront] at hnone ⊢
        by_cases hmemory : c.family = .durableMemory
        · have hready : ready c ≠ true := fun h =>
            ((ready_iff_dropped (hreasoned c hmem)).mp h).2 hmemory
          rw [if_neg fun h : ready c = true ∧ _ => hready h.1]
          refine if_neg fun h => ?_
          rw [if_pos h] at hnone
          exact hnone c hmem hmemory h.1 (allot_subset _ _ _ _ _ _ mem_cons_self)
        · have hsame : dropped c = ready c := by
            rw [Bool.eq_iff_iff, ready_iff_dropped (hreasoned c hmem)]
            exact (and_iff_left hmemory).symm
          rw [hsame]
      · rw [allot_unknown fun c hc hid => hx ⟨c, hc, hid⟩,
          allot_unknown fun c hc hid => hx ⟨c, hc, hid⟩]
    rw [ih _ hnone, hstep, foldl_cons]

theorem chosen_not_memory {order : List Text}
    (hpromotes : PromotesRanked (buildContextPlan scoring snap budget strategy)
      (applyModelRelevance scoring (buildContextPlan scoring snap budget strategy) (some order))
      order) {c : ContextCandidate S}
    (hc : c ∈ (buildContextPlan scoring snap budget strategy).candidates)
    (hmemory : c.family = .durableMemory) (hdropped : dropped c = true) :
    c.id ∉ chosenIds dropped (buildContextPlan scoring snap budget strategy) order := by
  intro hchosen
  have hweighed := relevance_weighed scoring (plan_firstOfIds scoring budget snap strategy) order
  have hreasoned := plan_reasoned scoring budget snap strategy c hc
  obtain ⟨i, hi⟩ := getElem?_of_mem hc
  obtain ⟨d, hd⟩ := exists_getElem?_of_forall₂ hweighed hi
  obtain ⟨hnot, hin⟩ := (hpromotes i c d hi hd).mpr ⟨hdropped, hchosen⟩
  rcases (forall₂_getElem? hweighed hi hd).comes hin with h | ⟨hready, -⟩
  · exact hnot h
  · exact ((ready_iff_dropped hreasoned).mp hready).2 hmemory

/-- The stage promotes as meant exactly where no memory is among those who are. -/
theorem promotes_iff (order : List Text) :
    let plan := buildContextPlan scoring snap budget strategy
    PromotesRanked plan (applyModelRelevance scoring plan (some order)) order ↔
      ∀ c ∈ plan.candidates, c.family = .durableMemory → dropped c = true →
        c.id ∉ chosenIds dropped plan order := by
  intro plan
  have hfirst : FirstOfIds plan.candidates := plan_firstOfIds scoring budget snap strategy
  have hreasoned : ∀ c ∈ plan.candidates, Reasoned c := plan_reasoned scoring budget snap strategy
  have hweighed := relevance_weighed scoring hfirst order
  constructor
  · intro hpromotes c hc
    exact chosen_not_memory scoring snap budget strategy hpromotes hc
  · intro hnone i c d hi hd
    have hc := mem_of_getElem? hi
    have hw := forall₂_getElem? hweighed hi hd
    have hchosen : chosenIds dropped plan order = chosenIds ready plan order :=
      congrArg Prod.fst (foldl_allot_eq hfirst hreasoned _ _ hnone)
    constructor
    · rintro ⟨hnot, hin⟩
      obtain ⟨hready, hmem⟩ := (hw.comes hin).resolve_left hnot
      exact ⟨((ready_iff_dropped (hreasoned c hc)).mp hready).1, hchosen ▸ hmem⟩
    · rintro ⟨hdropped, hmem⟩
      have hfamily : c.family ≠ .durableMemory := fun hmemory => hnone c hc hmemory hdropped hmem
      have hready := (ready_iff_dropped (hreasoned c hc)).mpr ⟨hdropped, hfamily⟩
      refine ⟨?_, hw.taken hready (hchosen ▸ hmem) hfamily⟩
      rw [ready_not_included hready]
      exact nofun

end Plan

def teaRecord : MemoryRecordSnapshot where
  id := "memory:1".toList
  kind := .fact
  title := []
  content := "tea".toList
  status := .active

/-- A memory under a question that it has no word of. -/
def teaSnapshot : ContextInventorySnapshot ℚ where
  userText := "hello".toList
  memoryRecords := [teaRecord]

theorem tea_selection : selection asciiScoring defaultBudget teaSnapshot =
    [recordCandidate asciiScoring defaultBudget teaSnapshot teaRecord] := by
  have hinventory : inventory asciiScoring defaultBudget teaSnapshot =
      [recordCandidate asciiScoring defaultBudget teaSnapshot teaRecord] := by decide +kernel
  unfold selection
  rw [hinventory, sortByKey_of_pairwise (pairwise_singleton _ _)]
  decide +kernel

/-- The memory, ranked first and within the budget, stays out. -/
theorem tea_not_promoted :
    ¬ PromotesRanked (buildContextPlan asciiScoring teaSnapshot defaultBudget .deterministicOnly)
      (applyModelRelevance asciiScoring
        (buildContextPlan asciiScoring teaSnapshot defaultBudget .deterministicOnly)
        (some ["memory:1".toList])) ["memory:1".toList] := by
  intro hpromotes
  have hplan : (buildContextPlan asciiScoring teaSnapshot defaultBudget
      .deterministicOnly).candidates =
        [recordCandidate asciiScoring defaultBudget teaSnapshot teaRecord] := by
    unfold buildContextPlan
    rw [tea_selection]
    rfl
  refine chosen_not_memory asciiScoring teaSnapshot defaultBudget .deterministicOnly hpromotes
    (hplan ▸ mem_singleton.mpr rfl) rfl (by decide +kernel) ?_
  unfold chosenIds buildContextPlan
  rw [tea_selection]
  decide +kernel

end ContextDesk.Planning
