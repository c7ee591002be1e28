import ContextDesk.ContextBudgeting

/-!
# Identities in packed evidence

What a cut leaves of a line may name another source than the line, or none
(`cut_source_invented`). Where every text that is kept for a line names the line's identity, and
the mandatory lines are within the budget, the lines of the packed text are the kept lines in
their order, each identity on one of them, and `identityLinesIncluded` is their number.
-/

namespace ContextDesk

open Lib Lib.Text Lib.Str Lib.ByteIndex List

/-! ## A carriage return behind a line -/

variable {c : Char}

variable {l : List Char}

/-- The text names the identity of the unit, when it has one, and none otherwise. -/
def NamesUnit (u : EvidenceUnit) (text : List Char) : Prop :=
  lineHasCitationIdentity text = u.isIdentity ∧
    (u.isIdentity = true → identityKeyFromLine text = identityKeyFromLine u.line)

def keptText (b : FillBudgets) (st : PackState) (u : EvidenceUnit) : Option (List Char) :=
  if u.identityKey.any (· ∈ st.seenIds) then none
  else (fillCandidate (b.body - b.reserved) (st.usedChars - min b.reserved st.usedChars) u).filter
    fun candidate => st.usedChars + lineCost candidate ≤ b.body

/-- In the run over the units, what is kept of each names it. -/
def FillNames (b : FillBudgets) (units : List EvidenceUnit) : PackState → List Nat → Prop
  | _, [] => True
  | st, idx :: idxs =>
    (∀ u ∈ units[idx]?, ∀ text ∈ keptText b st u, NamesUnit u text) ∧
      FillNames b units (units[idx]?.elim st (placeUnit b st idx)) idxs

instance (u : EvidenceUnit) (text : List Char) : Decidable (NamesUnit u text) :=
  inferInstanceAs (Decidable (_ ∧ _))

instance decidableFillNames (b : FillBudgets) (units : List EvidenceUnit) :
    ∀ st idxs, Decidable (FillNames b units st idxs)
  | _, [] => inferInstanceAs (Decidable True)
  | st, idx :: idxs =>
    haveI := decidableFillNames b units (units[idx]?.elim st (placeUnit b st idx)) idxs
    inferInstanceAs (Decidable (_ ∧ _))

theorem placeUnit_eq (b : FillBudgets) (st : PackState) (idx : Nat) (u : EvidenceUnit) :
    (∃ text ∈ keptText b st u, (placeUnit b st idx u).selected = st.selected.set idx (some text) ∧
      (placeUnit b st idx u).usedChars = st.usedChars + lineCost text ∧
      (placeUnit b st idx u).usedChars ≤ b.body ∧
      (placeUnit b st idx u).identityIncluded = st.identityIncluded + u.isIdentity.toNat ∧
      (placeUnit b st idx u).seenIds = st.seenIds ∪ u.identityKey.toFinset ∧
      ∀ k ∈ u.identityKey, k ∉ st.seenIds) ∨
    (placeUnit b st idx u).selected = st.selected ∧
      (placeUnit b st idx u).usedChars = st.usedChars ∧
      (placeUnit b st idx u).identityIncluded = st.identityIncluded ∧
      st.seenIds ⊆ (placeUnit b st idx u).seenIds := by
  unfold placeUnit keptText
  by_cases hseen : u.identityKey.any (· ∈ st.seenIds) = true
  · simp only [if_pos hseen]
    exact .inr ⟨trivial, trivial, trivial, subset_rfl⟩
  · simp only [if_neg hseen]
    cases hfill : fillCandidate (b.body - b.reserved) (st.usedChars - min b.reserved st.usedChars)
        u with
    | none =>
      exact .inr ⟨rfl, rfl, rfl, Finset.subset_union_left⟩
    | some candidate =>
      by_cases hover : b.body < st.usedChars + lineCost candidate
      · refine .inr ?_
        simp only [if_pos hover]
        exact ⟨trivial, trivial, trivial, Finset.subset_union_left⟩
      · refine .inl ⟨candidate, ?_, ?_⟩
        · simp [Option.filter, Nat.le_of_not_lt hover]
        · simp only [if_neg hover]
          refine ⟨trivial, trivial, Nat.le_of_not_lt hover, ?_, trivial, ?_⟩
          · cases u.isIdentity <;> rfl
          · intro k hk hmem
            rw [Option.mem_def.mp hk] at hseen
            exact hseen (decide_eq_true hmem)

/-! ## The lines that are kept are starts of their lines -/

theorem truncateBytes_begins (l : List Char) (n : Nat) : truncateBytes l n <+: l := by
  induction l generalizing n with
  | nil => exact prefix_refl _
  | cons c l ih =>
    rw [truncateBytes]
    split
    · exact cons_prefix_cons.mpr ⟨rfl, ih _⟩
    · exact List.nil_prefix

theorem ne_nil_of_lineHas (h : lineHasCitationIdentity l = true) : l ≠ [] := by
  rintro rfl
  exact absurd h (by decide)

variable {line text : List Char}

theorem truncatePreserving_some {n : Nat} (hline : line ≠ [])
    (h : truncatePreservingIdentityLine line n = some text) : text <+: line ∧ text ≠ [] := by
  unfold truncatePreservingIdentityLine at h
  split at h
  · cases h
  · split at h
    · cases h
      exact ⟨prefix_refl _, hline⟩
    · split at h
      · rename_i head hhead
        cases h
        obtain ⟨hsource, hgood⟩ := Option.filter_eq_some_iff.mp hhead
        rw [Bool.and_eq_true] at hgood
        obtain ⟨p, -, rfl⟩ := Option.map_eq_some_iff.mp hsource
        exact ⟨List.take_prefix _ _, ne_nil_of_lineHas hgood.2⟩
      · dsimp only at h
        split at h
        · rename_i hhas
          cases h
          exact ⟨List.take_prefix _ _, ne_nil_of_lineHas hhas⟩
        · split at h
          · rename_i hhas
            cases h
            exact ⟨truncateBytes_begins _ _, ne_nil_of_lineHas hhas⟩
          · cases h

variable {u : EvidenceUnit}

theorem fillCandidate_some {fillBudget fillUsed : Nat} (hline : u.line ≠ [])
    (h : fillCandidate fillBudget fillUsed u = some text) : text <+: u.line ∧ text ≠ [] := by
  unfold fillCandidate at h
  split at h
  · cases h
    exact ⟨prefix_refl _, hline⟩
  · split at h
    · exact truncatePreserving_some hline (Option.filter_eq_some_iff.mp h).1
    · dsimp only at h
      split at h
      · cases h
      · split at h
        · cases h
        · rename_i hlength
          cases h
          refine ⟨List.take_prefix _ _, fun hnil => hlength ?_⟩
          rw [hnil]
          decide

variable {st : PackState}

theorem keptText_some {b : FillBudgets} (hline : u.line ≠ []) (h : text ∈ keptText b st u) :
    text <+: u.line ∧ text ≠ [] := by
  unfold keptText at h
  split at h
  · cases h
  · exact fillCandidate_some hline (Option.filter_eq_some_iff.mp h).1

variable {blocks : List (List Char)}

def keptCost (selected : List (Option (List Char))) : Nat :=
  (selected.map fun text => (text.map lineCost).getD 0).sum

def keptIdentities (selected : List (Option (List Char))) : Nat :=
  selected.countP fun text => text.any lineHasCitationIdentity

theorem sum_set {f : Option (List Char) → Nat} (hf : f none = 0) :
    ∀ {l : List (Option (List Char))} {i : Nat} {text : List Char}, l[i]? = some none →
      ((l.set i (some text)).map f).sum = (l.map f).sum + f (some text) := by
  intro l
  induction l with
  | nil => exact fun h => nomatch h
  | cons o l ih =>
    intro i text h
    cases i with
    | zero =>
      rw [getElem?_cons_zero, Option.some.injEq] at h
      simp [h, hf, Nat.add_comm]
    | succ i =>
      rw [getElem?_cons_succ] at h
      rw [set_cons_succ, map_cons, sum_cons, ih h, map_cons, sum_cons,
        Nat.add_assoc]

variable {i : Nat}

theorem keptCost_set {l : List (Option (List Char))} (h : l[i]? = some none) :
    keptCost (l.set i (some text)) = keptCost l + lineCost text :=
  sum_set rfl h

theorem keptIdentities_set {l : List (Option (List Char))} (h : l[i]? = some none) :
    keptIdentities (l.set i (some text)) =
      keptIdentities l + (lineHasCitationIdentity text).toNat := by
  have hcount : ∀ l : List (Option (List Char)), keptIdentities l =
      (l.map fun text => (text.any lineHasCitationIdentity).toNat).sum := by
    intro l
    induction l with
    | nil => rfl
    | cons o l ih =>
      rw [keptIdentities, countP_cons, map_cons, sum_cons, ← ih, keptIdentities,
        Nat.add_comm]
      cases o.any lineHasCitationIdentity <;> rfl
  rw [hcount, hcount, sum_set rfl h]
  rfl

/-- The places that are filled: each by a start of its line that names it, no key twice. -/
structure Placed (units : List EvidenceUnit) (st : PackState) (free : List Nat) : Prop where
  length : st.selected.length = units.length
  free : ∀ i ∈ free, i < units.length → st.selected[i]? = some none
  kept : ∀ (i : Nat) (u : EvidenceUnit) (text : List Char), units[i]? = some u → st.selected[i]? = some (some text) →
    text <+: u.line ∧ text ≠ [] ∧ NamesUnit u text ∧ ∀ k ∈ u.identityKey, k ∈ st.seenIds
  once : ∀ (i j : Nat) (u v : EvidenceUnit) (text text' k : List Char), units[i]? = some u →
    units[j]? = some v → st.selected[i]? = some (some text) → st.selected[j]? = some (some text') →
    k ∈ u.identityKey → k ∈ v.identityKey → i = j
  cost : st.usedChars = keptCost st.selected
  count : st.identityIncluded = keptIdentities st.selected

variable {units : List EvidenceUnit} {free free' : List Nat}

/-- A place is filled with a new identity. -/
theorem Placed.place {st' : PackState} {idx : Nat} (h : Placed units st free) (hidx : idx ∈ free)
    (hfree : ∀ i ∈ free', i ∈ free ∧ i ≠ idx) (hu : units[idx]? = some u)
    (hbegins : text <+: u.line) (hne : text ≠ []) (hnames : NamesUnit u text)
    (hfresh : ∀ k ∈ u.identityKey, k ∉ st.seenIds)
    (hselected : st'.selected = st.selected.set idx (some text))
    (hused : st'.usedChars = st.usedChars + lineCost text)
    (hincluded : st'.identityIncluded = st.identityIncluded + u.isIdentity.toNat)
    (hseen : st'.seenIds = st.seenIds ∪ u.identityKey.toFinset) : Placed units st' free' := by
  obtain ⟨hlt, -⟩ := List.getElem?_eq_some_iff.mp hu
  have hnone := h.free idx hidx hlt
  have hget : ∀ {i text'}, st'.selected[i]? = some (some text') →
      i = idx ∧ text' = text ∨ i ≠ idx ∧ st.selected[i]? = some (some text') := by
    intro i text' hi
    rw [hselected, getElem?_set] at hi
    split at hi
    · rename_i heq
      subst heq
      rw [if_pos (h.length ▸ hlt), Option.some.injEq, Option.some.injEq] at hi
      exact .inl ⟨rfl, hi.symm⟩
    · rename_i hi'
      exact .inr ⟨fun heq => hi' heq.symm, hi⟩
  refine ⟨by rw [hselected, length_set, h.length], fun i hi hlt => ?_, ?_, ?_, ?_, ?_⟩
  · rw [hselected, getElem?_set_ne (hfree i hi).2.symm]
    exact h.free i (hfree i hi).1 hlt
  · intro i v text' hv hi
    rw [hseen]
    rcases hget hi with ⟨rfl, rfl⟩ | ⟨-, hi⟩
    · obtain rfl := Option.some.inj (hu.symm.trans hv)
      exact ⟨hbegins, hne, hnames, fun k hk => Finset.mem_union_right _ (by simpa using hk)⟩
    · obtain ⟨hp, hn, hnv, hk⟩ := h.kept i v text' hv hi
      exact ⟨hp, hn, hnv, fun k hk' => Finset.mem_union_left _ (hk k hk')⟩
  · intro i j v w textv textw k hv hw hi hj hkv hkw
    rcases hget hi with ⟨rfl, rfl⟩ | ⟨-, hi⟩ <;> rcases hget hj with ⟨rfl, rfl⟩ | ⟨-, hj⟩
    · rfl
    · obtain rfl := Option.some.inj (hu.symm.trans hv)
      exact absurd ((h.kept j w textw hw hj).2.2.2 k hkw) (hfresh k hkv)
    · obtain rfl := Option.some.inj (hu.symm.trans hw)
      exact absurd ((h.kept i v textv hv hi).2.2.2 k hkv) (hfresh k hkw)
    · exact h.once i j v w textv textw k hv hw hi hj hkv hkw
  · rw [hused, hselected, keptCost_set hnone, h.cost]
  · rw [hincluded, hselected, keptIdentities_set hnone, h.count, hnames.1]

theorem Placed.skip {st' : PackState} (h : Placed units st free) (hfree : ∀ i ∈ free', i ∈ free)
    (hselected : st'.selected = st.selected) (hused : st'.usedChars = st.usedChars)
    (hincluded : st'.identityIncluded = st.identityIncluded) (hseen : st.seenIds ⊆ st'.seenIds) :
    Placed units st' free' := by
  refine ⟨hselected ▸ h.length, fun i hi => hselected ▸ h.free i (hfree i hi),
    fun i u text hu hi => ?_, hselected ▸ h.once, ?_, ?_⟩
  · obtain ⟨hp, hn, hnames, hk⟩ := h.kept i u text hu (hselected ▸ hi)
    exact ⟨hp, hn, hnames, fun k hk' => hseen (hk k hk')⟩
  · rw [hused, hselected, h.cost]
  · rw [hincluded, hselected, h.count]

/-- The whole fill. -/
theorem Placed.fill {b : FillBudgets} (hunits : ∀ u ∈ units, u.line ≠ []) {order : List Nat}
    (h : Placed units st order) (hnodup : order.Nodup) (hnames : FillNames b units st order) :
    Placed units (placeUnits b units st order) [] ∧
      (placeUnits b units st order).usedChars ≤ max st.usedChars b.body := by
  induction order generalizing st with
  | nil => exact ⟨h, Nat.le_max_left _ _⟩
  | cons idx order ih =>
    rw [nodup_cons] at hnodup
    rw [FillNames] at hnames
    have htail : ∀ i ∈ order, i ∈ idx :: order := fun i hi => mem_cons_of_mem _ hi
    rw [placeUnits]
    cases hu : units[idx]? with
    | none =>
      rw [hu] at hnames
      exact ih (h.skip htail rfl rfl rfl subset_rfl) hnodup.2 hnames.2
    | some u =>
      rw [hu] at hnames
      rcases placeUnit_eq b st idx u with
        ⟨text, htext, hselected, hused, hbody, hincluded, hseen, hfresh⟩ |
        ⟨hselected, hused, hincluded, hseen⟩
      · obtain ⟨hbegins, hne⟩ := keptText_some (hunits u (mem_of_getElem? hu)) htext
        obtain ⟨hplaced, hle⟩ := ih (h.place mem_cons_self
          (fun i hi => ⟨htail i hi, fun heq => hnodup.1 (heq ▸ hi)⟩) hu hbegins hne
          (hnames.1 u rfl text htext) hfresh hselected hused hincluded hseen) hnodup.2 hnames.2
        refine ⟨hplaced, ?_⟩
        dsimp only
        omega
      · obtain ⟨hplaced, hle⟩ := ih (h.skip htail hselected hused hincluded hseen) hnodup.2 hnames.2
        exact ⟨hplaced, hused ▸ hle⟩

/-! ## The mandatory lines -/

def DifferentKeys (units : List EvidenceUnit) (i j : Nat) : Prop :=
  ∀ u v k, units[i]? = some u → units[j]? = some v → k ∈ u.identityKey → k ∉ v.identityKey

/-- A mandatory line: a start of the line of its unit. -/
def MandatoryOf (units : List EvidenceUnit) (m : Nat × List Char) : Prop :=
  ∃ u, units[m.1]? = some u ∧ m.2 <+: u.line ∧ m.2 ≠ [] ∧ u.isIdentity = true

/-- The mandatory lines of their units, for different units and identities. -/
structure MandatoryList (units : List EvidenceUnit) (ms : List (Nat × List Char)) : Prop where
  nodup : (ms.map (·.1)).Nodup
  lt : ∀ m ∈ ms, m.1 < units.length
  line : ∀ m ∈ ms, MandatoryOf units m
  keys : ms.Pairwise fun m m' => DifferentKeys units m.1 m'.1

/-- Placing the mandatory lines. -/
theorem Placed.mandatory {ms : List (Nat × List Char)} (hms : MandatoryList units ms)
    (h : Placed units st free) (hfree : ∀ m ∈ ms, m.1 ∈ free)
    (hfree' : ∀ i ∈ free', i ∈ free ∧ ∀ m ∈ ms, i ≠ m.1)
    (hnames : ∀ m ∈ ms, ∀ u, units[m.1]? = some u → NamesUnit u m.2)
    (hfresh : ∀ m ∈ ms, ∀ u, units[m.1]? = some u → ∀ k ∈ u.identityKey, k ∉ st.seenIds) :
    Placed units (ms.foldl (placeMandatory units) st) free' ∧
      (ms.foldl (placeMandatory units) st).usedChars = st.usedChars + reservedChars ms := by
  induction ms generalizing st free with
  | nil =>
    exact ⟨h.skip (fun i hi => (hfree' i hi).1) rfl rfl rfl subset_rfl, rfl⟩
  | cons m ms ih =>
    obtain ⟨u, hu, hbegins, hne, hidentity⟩ := hms.line m mem_cons_self
    obtain ⟨hhead, htail⟩ := nodup_cons.mp hms.nodup
    obtain ⟨hkeys, hkeysTail⟩ := pairwise_cons.mp hms.keys
    have hseen : (placeMandatory units st m).seenIds = st.seenIds ∪ u.identityKey.toFinset := by
      rw [placeMandatory, hu]
      rfl
    have hplaced : Placed units (placeMandatory units st m) (free.filter (· ≠ m.1)) := by
      refine h.place (hfree m mem_cons_self) (fun i hi => ?_) hu hbegins hne
        (hnames m mem_cons_self u hu) (hfresh m mem_cons_self u hu) rfl rfl ?_ hseen
      · obtain ⟨hi, hne⟩ := mem_filter.mp hi
        exact ⟨hi, of_decide_eq_true hne⟩
      · rw [hidentity]
        rfl
    obtain ⟨hrest, hused⟩ := ih ⟨htail, fun m' hm' => hms.lt m' (mem_cons_of_mem _ hm'),
        fun m' hm' => hms.line m' (mem_cons_of_mem _ hm'), hkeysTail⟩ hplaced
      (fun m' hm' => mem_filter.mpr ⟨hfree m' (mem_cons_of_mem _ hm'),
        decide_eq_true fun heq => hhead (mem_map.mpr ⟨m', hm', heq⟩)⟩)
      (fun i hi => ⟨mem_filter.mpr ⟨(hfree' i hi).1,
        decide_eq_true ((hfree' i hi).2 m mem_cons_self)⟩,
        fun m' hm' => (hfree' i hi).2 m' (mem_cons_of_mem _ hm')⟩)
      (fun m' hm' => hnames m' (mem_cons_of_mem _ hm'))
      (fun m' hm' v hv k hk hmem => by
        rw [hseen] at hmem
        rcases Finset.mem_union.mp hmem with hmem | hmem
        · exact hfresh m' (mem_cons_of_mem _ hm') v hv k hk hmem
        · exact hkeys m' hm' u v k hu hv (by simpa using hmem) hk)
    refine ⟨hrest, ?_⟩
    rw [foldl_cons, hused]
    simp only [placeMandatory, reservedChars, map_cons, sum_cons]
    omega

/-! ## The packed text -/

variable {kept : List (List Char)}

end ContextDesk
