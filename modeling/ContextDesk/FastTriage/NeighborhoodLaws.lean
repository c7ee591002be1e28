import ContextDesk.FastTriage.Neighborhood

/-!
# What the categories say

Each row has one category, whatever the order of the rows; context goes to the nearest rows first
and to as many as the budget has places, and the three counters are the rows withheld
(`classifyNeighborhood_accounted`). A row that stands at the ordinal of a focus row of its source is
said to follow it, which is wrong unless it also follows another one (`directions_iff`).
-/

namespace ContextDesk

open Lib List

/-- The categories that place a row of the independent chronology. -/
def FastTriageEvidenceCategory.isContext : FastTriageEvidenceCategory → Bool
  | .precedingSameSource | .followingSameSource | .crossSourceTemporal => true
  | _ => false

section

variable {rows : List NeighborhoodRow} {traces : List String}
  {clock : FastTriageClockCompatibility} {budget : FastTriageNeighborhoodBudget}

theorem focusCategory_cases (rows : List NeighborhoodRow) (traces : List String)
    (row : NeighborhoodRow) :
    focusCategory rows traces row = .focus ∨ focusCategory rows traces row = .traceLinked ∨
      (focusCategory rows traces row = .propagation ∧ row.candidateId ∈ traces ∧
        ∃ first ordinal, candidateFirst rows row.candidateId = some first ∧
          row.ordinal = some ordinal ∧ row.sourceLabel ≠ (ofLex first).2 ∧
          (ofLex first).1 < ordinal) := by
  unfold focusCategory
  split
  · rename_i first ordinal htrace hfirst hordinal
    split
    · rename_i hsource
      split
      · rename_i hlater
        exact .inr (.inr ⟨rfl, of_decide_eq_true htrace, first, ordinal, hfirst, hordinal, hsource,
          hlater⟩)
      · exact .inr (.inl rfl)
    · exact .inl rfl
  · split
    · exact .inr (.inl rfl)
    · exact .inl rfl
  · exact .inl rfl

variable {row : NeighborhoodRow}

theorem ranked_isContext {r : Ranked} (h : readRow rows clock budget row = .ranked r) :
    r.category.isContext = true := by
  obtain ⟨-, -, ⟨v, -, -, -, hcategory⟩ | ⟨-, -, hcategory⟩⟩ := readRow_ranked rows clock budget h
  · rw [hcategory]
    split <;> rfl
  · rw [hcategory]
    rfl

theorem mem_independentRows :
    row ∈ independentRows rows ↔ row ∈ rows ∧ row.scope = .independent := by
  unfold independentRows
  rw [mem_filter, decide_eq_true_eq]

theorem mem_focusRows : row ∈ focusRows rows ↔ row ∈ rows ∧ row.scope = .candidate := by
  unfold focusRows
  rw [mem_filter, decide_eq_true_eq]

theorem categoryOf_candidate (h : row.scope = .candidate) :
    categoryOf rows traces clock budget row = focusCategory rows traces row := by
  unfold categoryOf
  rw [h]

theorem ordinal_isSome {row : NeighborhoodRow} :
    row.ordinal.isSome = true ↔ readRow rows clock budget row ≠ .noOrdinal := by
  cases hordinal : row.ordinal with
  | none =>
    rw [readRow_none rows clock budget hordinal]
    simp
  | some ordinal =>
    refine ⟨fun _ => ?_, fun _ => rfl⟩
    by_cases hfocus : focusOrdinals rows row.sourceLabel = []
    · rw [readRow_other rows clock budget hordinal hfocus]
      split
      · simp
      · split <;> simp
    · obtain ⟨v, -, heq⟩ := readRow_same rows clock budget hordinal hfocus
      rw [heq]
      split <;> simp

theorem countP_split {α : Type} {p q r s : α → Bool} {l : List α}
    (h : ∀ a ∈ l, (p a).toNat = (q a).toNat + (r a).toNat + (s a).toNat) :
    l.countP p = l.countP q + l.countP r + l.countP s := by
  induction l with
  | nil => rfl
  | cons a l ih =>
    have ha := h a mem_cons_self
    have hl := ih fun b hb => h b (mem_cons_of_mem a hb)
    have hone : ∀ b : Bool, (if b = true then 1 else 0) = b.toNat := fun b => by cases b <;> rfl
    simp only [countP_cons, hl, hone]
    omega

variable (hids : (rows.map NeighborhoodRow.evidenceId).Nodup)

include hids

theorem category_of_mem (hrow : row ∈ rows) :
    (classifyNeighborhood rows traces clock budget).categories row.evidenceId =
      some (categoryOf rows traces clock budget row) := by
  rw [classifyNeighborhood_eq traces clock budget hids]
  unfold closedNeighborhood
  dsimp only
  rw [Distinct.find?_eq_some hids hrow (decide_eq_true rfl) fun _ _ h => of_decide_eq_true h]
  rfl

theorem countP_admitted (n : Nat) : (admittedRows rows clock budget).countP
    (fun r => rank Ranked.key (admittedRows rows clock budget) r < n) =
      min n (admittedRows rows clock budget).length := by
  have hperm := perm_insertionSort (fun a b : Ranked => a.key ≤ b.key)
    (admittedRows rows clock budget)
  have hcount := countP_rank (sorted_strict clock budget hids) n
  rw [hperm.countP_eq, hperm.length_eq] at hcount
  simpa only [rank_perm hperm] using hcount

/-- What becomes of a row of the independent chronology. -/
theorem category_cases {row : NeighborhoodRow} (hrow : row ∈ independentRows rows) :
    ((∃ r, readRow rows clock budget row = .ranked r ∧
        rank Ranked.key (admittedRows rows clock budget) r < budget.maxContextRows.toNat ∧
        (classifyNeighborhood rows traces clock budget).categories row.evidenceId =
          some r.category) ∨
      ((∀ r, readRow rows clock budget row = .ranked r →
          ¬ rank Ranked.key (admittedRows rows clock budget) r < budget.maxContextRows.toNat) ∧
        (classifyNeighborhood rows traces clock budget).categories row.evidenceId =
          some .independentNoise)) := by
  obtain ⟨hmem, hscope⟩ := mem_independentRows.mp hrow
  rw [category_of_mem hids hmem]
  unfold categoryOf
  rw [hscope]
  dsimp only
  split
  · rename_i r hread
    split
    · rename_i hrank
      exact .inl ⟨r, hread, hrank, rfl⟩
    · rename_i hrank
      refine .inr ⟨fun s hs => ?_, rfl⟩
      rw [hread] at hs
      cases hs
      exact hrank
  · rename_i hread
    exact .inr ⟨fun r hr => absurd hr (hread r), rfl⟩

theorem isContext_iff (hrow : row ∈ independentRows rows) :
    (((classifyNeighborhood rows traces clock budget).categories row.evidenceId).any
        FastTriageEvidenceCategory.isContext) = true ↔
      ∃ r, readRow rows clock budget row = .ranked r ∧
        rank Ranked.key (admittedRows rows clock budget) r < budget.maxContextRows.toNat := by
  rcases @category_cases rows traces clock budget hids row hrow with
    ⟨r, hread, hrank, hcategory⟩ | ⟨hnone, hcategory⟩
  · rw [hcategory]
    exact ⟨fun _ => ⟨r, hread, hrank⟩, fun _ => ranked_isContext hread⟩
  · rw [hcategory]
    refine ⟨fun h => absurd h (by decide), ?_⟩
    rintro ⟨r, hread, hrank⟩
    exact absurd hrank (hnone r hread)

omit hids in
theorem key_lt_of_distance {r s : Ranked} (h : r.distance < s.distance) : r.key < s.key :=
  Prod.Lex.toLex_lt_toLex.mpr (.inl h)

end

structure Accounted (rows : List NeighborhoodRow) (traces : List String)
    (clock : FastTriageClockCompatibility) (budget : FastTriageNeighborhoodBudget)
    (out : FastTriageNeighborhood) : Prop where
  one_each : ∀ id, (∃ category, out.categories id = some category) ↔
    ∃ row ∈ rows, row.evidenceId = id
  order_free : ∀ rows', rows.Perm rows' → classifyNeighborhood rows' traces clock budget = out
  focus : ∀ row ∈ rows, row.scope = .candidate →
    ∀ category, out.categories row.evidenceId = some category →
      category.isContext = false ∧ category ≠ .independentNoise
  comparable : ∀ row ∈ rows, out.categories row.evidenceId = some .crossSourceTemporal →
    clock = .resolvedComparable
  within_budget : (rows.countP fun row => decide (row.scope = .independent) &&
    (out.categories row.evidenceId).any FastTriageEvidenceCategory.isContext) ≤
      budget.maxContextRows.toNat
  nearest_first : ∀ near ∈ rows, ∀ far ∈ rows, near.scope = .independent →
    far.scope = .independent → ∀ r s, readRow rows clock budget near = .ranked r →
      readRow rows clock budget far = .ranked s → r.distance < s.distance →
        (out.categories far.evidenceId).any FastTriageEvidenceCategory.isContext = true →
          (out.categories near.evidenceId).any FastTriageEvidenceCategory.isContext = true
  withheld : (rows.countP fun row => decide (row.scope = .independent) && row.ordinal.isSome &&
      decide (out.categories row.evidenceId = some .independentNoise)) =
    out.withheldClockIncompatible + out.withheldOutOfRadius + out.withheldOverBudget

section

variable {rows : List NeighborhoodRow} (hids : (rows.map NeighborhoodRow.evidenceId).Nodup)
  (traces : List String) (clock : FastTriageClockCompatibility)
  (budget : FastTriageNeighborhoodBudget)

include hids

theorem context_count : (independentRows rows).countP (fun row =>
    ((classifyNeighborhood rows traces clock budget).categories row.evidenceId).any
      FastTriageEvidenceCategory.isContext) =
    min budget.maxContextRows.toNat (admittedRows rows clock budget).length := by
  rw [← countP_admitted hids]
  conv_rhs => rw [admittedRows]
  rw [countP_filterMap]
  refine countP_congr fun row hrow => ?_
  rw [isContext_iff hids hrow]
  constructor
  · rintro ⟨r, hread, hrank⟩
    rw [hread]
    exact decide_eq_true hrank
  · intro h
    cases hread : readRow rows clock budget row with
    | ranked r =>
      rw [hread] at h
      exact ⟨r, rfl, of_decide_eq_true h⟩
    | _ =>
      rw [hread] at h
      cases h

theorem noise_count : (independentRows rows).countP (fun row => row.ordinal.isSome &&
    decide ((classifyNeighborhood rows traces clock budget).categories row.evidenceId =
      some .independentNoise)) =
    (independentRows rows).countP (fun row => readRow rows clock budget row = .clockIncompatible) +
      (independentRows rows).countP (fun row => readRow rows clock budget row = .outOfRadius) +
      ((admittedRows rows clock budget).length - budget.maxContextRows.toNat) := by
  have hover : (admittedRows rows clock budget).length - budget.maxContextRows.toNat =
      (independentRows rows).countP (fun row =>
        ((readRow rows clock budget row).ranked?.map fun r => decide
          ¬ rank Ranked.key (admittedRows rows clock budget) r <
            budget.maxContextRows.toNat).getD false) := by
    have hcount := @countP_admitted rows clock budget hids budget.maxContextRows.toNat
    have htotal := length_eq_countP_add_countP (fun r => decide
      (rank Ranked.key (admittedRows rows clock budget) r < budget.maxContextRows.toNat))
      (l := admittedRows rows clock budget)
    rw [← countP_filterMap]
    simp only [decide_eq_true_eq] at htotal
    show _ = (admittedRows rows clock budget).countP _
    omega
  rw [hover]
  refine countP_split fun row hrow => ?_
  have hordinal := @ordinal_isSome rows clock budget row
  rcases @category_cases rows traces clock budget hids row hrow with
    ⟨r, hread, hrank, hcategory⟩ | ⟨hnone, hcategory⟩
  · have hcontext : r.category ≠ .independentNoise := by
      intro heq
      have h := ranked_isContext hread
      rw [heq] at h
      cases h
    have hkept := Nat.not_le_of_lt hrank
    simp [hread, hcategory, hcontext, hkept]
  · rw [hcategory]
    cases hread : readRow rows clock budget row with
    | ranked r =>
      rw [hread] at hordinal
      have hover := Nat.le_of_not_lt (hnone r hread)
      simp [hordinal.mpr (by simp), hover]
    | noOrdinal =>
      rw [hread] at hordinal
      have hnot : row.ordinal.isSome = false := by simpa using hordinal
      simp [hnot, Reading.ranked?]
    | _ =>
      rw [hread] at hordinal
      simp [hordinal.mpr (by simp), Reading.ranked?]

/-- Every classification keeps the laws. -/
theorem classifyNeighborhood_accounted :
    Accounted rows traces clock budget (classifyNeighborhood rows traces clock budget) where
  one_each := by
    intro id
    constructor
    · rintro ⟨category, hcategory⟩
      rw [classifyNeighborhood_eq traces clock budget hids] at hcategory
      obtain ⟨row, hfind, -⟩ := Option.map_eq_some_iff.mp hcategory
      refine ⟨row, mem_of_find?_eq_some hfind, ?_⟩
      simpa using find?_some hfind
    · rintro ⟨row, hrow, rfl⟩
      exact ⟨_, category_of_mem hids hrow⟩
  order_free := fun rows' hperm => (classifyNeighborhood_perm hperm clock budget traces hids).symm
  focus := by
    intro row hrow hscope category hcategory
    rw [category_of_mem hids hrow, Option.some.injEq, categoryOf_candidate hscope] at hcategory
    subst hcategory
    rcases focusCategory_cases rows traces row with h | h | ⟨h, -⟩ <;> rw [h] <;> decide
  comparable := by
    intro row hrow hcategory
    cases hscope : row.scope with
    | candidate =>
      rw [category_of_mem hids hrow, Option.some.injEq, categoryOf_candidate hscope] at hcategory
      rcases focusCategory_cases rows traces row with h | h | ⟨h, -⟩ <;> rw [h] at hcategory <;>
        cases hcategory
    | independent =>
      rcases @category_cases rows traces clock budget hids row
          (mem_independentRows.mpr ⟨hrow, hscope⟩) with
        ⟨r, hread, -, hr⟩ | ⟨-, hnoise⟩
      · rw [hr, Option.some.injEq] at hcategory
        obtain ⟨-, -, ⟨v, -, -, -, hv⟩ | ⟨-, hclock, -⟩⟩ := readRow_ranked rows clock budget hread
        · rw [hcategory] at hv
          split at hv <;> cases hv
        · exact hclock
      · rw [hnoise] at hcategory
        cases hcategory
  within_budget := by
    have hcount := context_count hids traces clock budget
    unfold independentRows at hcount
    rw [countP_filter] at hcount
    refine le_trans (countP_mono_left fun row _ h => ?_) (hcount.le.trans (min_le_left _ _))
    rwa [Bool.and_comm]
  nearest_first := by
    intro near hnear far hfar hnearScope hfarScope r s hr hs hlt hcontext
    rw [isContext_iff hids (mem_independentRows.mpr ⟨hfar, hfarScope⟩)] at hcontext
    rw [isContext_iff hids (mem_independentRows.mpr ⟨hnear, hnearScope⟩)]
    obtain ⟨s', hs', hrank⟩ := hcontext
    rw [hs] at hs'
    cases hs'
    exact ⟨r, hr, Nat.lt_of_le_of_lt (rank_mono (key_lt_of_distance hlt).le) hrank⟩
  withheld := by
    have hcount := noise_count hids traces clock budget
    rw [classifyNeighborhood_eq traces clock budget hids] at hcount ⊢
    unfold independentRows at hcount
    rw [countP_filter] at hcount
    refine Eq.trans ?_ hcount
    refine countP_congr fun row _ => ?_
    simp only [Bool.and_eq_true]
    tauto

end

/-- Two rows of one source, with the focus row in between. -/
def aroundFocus : List NeighborhoodRow :=
  [⟨"e1", "c1", "app.log", .candidate, some 5⟩, ⟨"e2", "c0", "app.log", .independent, some 4⟩,
    ⟨"e3", "c0", "app.log", .independent, some 6⟩]

theorem classifyNeighborhood_accounted_around : Accounted aroundFocus [] .orderOnly ⟨2, 2, 1⟩
    (classifyNeighborhood aroundFocus [] .orderOnly ⟨2, 2, 1⟩) :=
  classifyNeighborhood_accounted (by decide) [] .orderOnly ⟨2, 2, 1⟩

/-! ## Directions -/

def FocusAt (rows : List NeighborhoodRow) (sourceLabel : String) (ordinal : Nat) : Prop :=
  ∃ focus ∈ rows, focus.scope = .candidate ∧ focus.sourceLabel = sourceLabel ∧
    focus.ordinal = some ordinal

/-- The earliest row of a candidate, of several sources that of the least. -/
def Earliest (rows : List NeighborhoodRow) (first : NeighborhoodRow) (ordinal : Nat) : Prop :=
  first ∈ rows ∧ first.scope = .candidate ∧ first.ordinal = some ordinal ∧
    ∀ other ∈ rows, other.scope = .candidate → other.candidateId = first.candidateId →
      ∀ ordinal', other.ordinal = some ordinal' →
        toLex (ordinal, first.sourceLabel) ≤ toLex (ordinal', other.sourceLabel)

/-- What the contracts of the three categories say of every row. -/
def ContractsHold (rows : List NeighborhoodRow) (traces : List String)
    (budget : FastTriageNeighborhoodBudget) (out : FastTriageNeighborhood) : Prop :=
  ∀ row ∈ rows,
    (out.categories row.evidenceId = some .precedingSameSource → ∃ ordinal v,
      row.ordinal = some ordinal ∧ FocusAt rows row.sourceLabel v ∧ ordinal < v ∧
        v - ordinal ≤ budget.sameSourceRadius.toNat) ∧
    (out.categories row.evidenceId = some .followingSameSource → ∃ ordinal v,
      row.ordinal = some ordinal ∧ FocusAt rows row.sourceLabel v ∧ v < ordinal ∧
        ordinal - v ≤ budget.sameSourceRadius.toNat) ∧
    (out.categories row.evidenceId = some .propagation → row.scope = .candidate ∧
      row.candidateId ∈ traces ∧ ∃ first ordinal ordinal', first.candidateId = row.candidateId ∧
        Earliest rows first ordinal ∧ row.ordinal = some ordinal' ∧
          first.sourceLabel ≠ row.sourceLabel ∧ ordinal < ordinal')

section

variable (rows : List NeighborhoodRow) (clock : FastTriageClockCompatibility)
  (budget : FastTriageNeighborhoodBudget)

/-- A row of the chronology at the ordinal of a focus row: one of its source or, where the clocks
compare and its source has none, any. -/
def atFocus (row : NeighborhoodRow) : Bool :=
  decide (row.scope = .independent) &&
    row.ordinal.any fun ordinal =>
      decide (ordinal ∈ focusOrdinals rows row.sourceLabel) ||
        (decide (focusOrdinals rows row.sourceLabel = []) &&
          decide (clock = .resolvedComparable) && decide (ordinal ∈ allFocusOrdinals rows))

/-- The rows at a focus ordinal with a smaller ordinal, or the same and a smaller id. -/
def aheadAtFocus (row : NeighborhoodRow) : Nat :=
  rows.countP fun other => atFocus rows clock other &&
    decide (toLex (other.ordinal.getD 0, other.evidenceId) <
      toLex (row.ordinal.getD 0, row.evidenceId))

/-- Where a row with a place in the budget is at the ordinal of a focus row of its source, another
focus row of the source is before it. -/
def StandsApart : Prop :=
  ∀ row ∈ rows, row.scope = .independent → ∀ ordinal, row.ordinal = some ordinal →
    FocusAt rows row.sourceLabel ordinal →
      aheadAtFocus rows clock row < budget.maxContextRows.toNat →
        ∃ v, FocusAt rows row.sourceLabel v ∧ v < ordinal ∧
          ordinal - v ≤ budget.sameSourceRadius.toNat

end

section

variable {rows : List NeighborhoodRow} {traces : List String}
  {clock : FastTriageClockCompatibility} {budget : FastTriageNeighborhoodBudget}

variable {ordinal : Nat}

theorem mem_focusOrdinals {sourceLabel : String} :
    ordinal ∈ focusOrdinals rows sourceLabel ↔ FocusAt rows sourceLabel ordinal := by
  unfold focusOrdinals
  rw [mem_filterMap]
  constructor
  · rintro ⟨focus, hfocus, h⟩
    obtain ⟨hmem, hscope⟩ := mem_focusRows.mp hfocus
    split at h
    · rename_i hsource
      exact ⟨focus, hmem, hscope, hsource, h⟩
    · cases h
  · rintro ⟨focus, hmem, hscope, hsource, h⟩
    exact ⟨focus, mem_focusRows.mpr ⟨hmem, hscope⟩, by rw [if_pos hsource, h]⟩

theorem absDiff_eq_zero {a b : Nat} : absDiff a b = 0 ↔ a = b := by
  unfold absDiff
  split <;> omega

theorem nearest_eq_zero {focus : List Nat} :
    (extreme true (focus.map fun value => absDiff value ordinal)).getD U64_MAX = 0 ↔
      ordinal ∈ focus := by
  cases hleast : extreme true (focus.map fun value => absDiff value ordinal) with
  | none =>
    have hnil := map_eq_nil_iff.mp (extreme_eq_none.mp hleast)
    rw [hnil]
    simp [U64_MAX]
  | some d =>
    obtain ⟨hmem, hle⟩ := extreme_eq_some.mp hleast
    obtain ⟨v, hv, rfl⟩ := mem_map.mp hmem
    rw [Option.getD_some]
    constructor
    · intro h
      exact absDiff_eq_zero.mp h ▸ hv
    · intro hordinal
      have h : absDiff v ordinal ≤ absDiff ordinal ordinal := hle _ (mem_map_of_mem hordinal)
      rwa [absDiff_eq_zero.mpr rfl, Nat.le_zero] at h

theorem Nearest.eq_zero {focus : List Nat} {v : Nat} (h : Nearest focus ordinal v) :
    absDiff v ordinal = 0 ↔ ordinal ∈ focus := by
  constructor
  · intro hzero
    exact absDiff_eq_zero.mp hzero ▸ h.1
  · intro hordinal
    have hself : absDiff ordinal ordinal = 0 := absDiff_eq_zero.mpr rfl
    have hle := h.2 ordinal hordinal
    omega

/-- The rows at a focus ordinal are those ranked at distance zero. -/
theorem atFocus_iff {row : NeighborhoodRow} : atFocus rows clock row = true ↔
    row.scope = .independent ∧ ∃ r, readRow rows clock budget row = .ranked r ∧ r.distance = 0 := by
  unfold atFocus
  rw [Bool.and_eq_true, decide_eq_true_eq]
  refine and_congr_right fun _ => ?_
  cases hordinal : row.ordinal with
  | none =>
    rw [readRow_none rows clock budget hordinal]
    simp
  | some ordinal =>
    by_cases hfocus : focusOrdinals rows row.sourceLabel = []
    · rw [readRow_other rows clock budget hordinal hfocus, hfocus]
      simp only [Option.any_some, not_mem_nil, decide_false, Bool.false_or, decide_true,
        Bool.true_and, Bool.and_eq_true, decide_eq_true_eq]
      rw [← nearest_eq_zero]
      by_cases hclock : clock = .resolvedComparable
      · rw [if_neg (not_not.mpr hclock)]
        constructor
        · rintro ⟨-, hzero⟩
          exact ⟨_, if_neg (by omega), hzero⟩
        · rintro ⟨r, hr, hzero⟩
          split at hr
          · cases hr
          · cases hr
            exact ⟨hclock, hzero⟩
      · rw [if_pos hclock]
        simp [hclock]
    · obtain ⟨v, hv, heq⟩ := readRow_same rows clock budget hordinal hfocus
      rw [heq]
      simp only [Option.any_some, hfocus, decide_false, Bool.false_and, Bool.or_false,
        decide_eq_true_eq]
      rw [← hv.eq_zero]
      constructor
      · intro hzero
        exact ⟨_, if_neg (by omega), hzero⟩
      · rintro ⟨r, hr, hzero⟩
        split at hr
        · cases hr
        · cases hr
          exact hzero

theorem rank_atFocus {row : NeighborhoodRow} {r : Ranked}
    (hread : readRow rows clock budget row = .ranked r) (hzero : r.distance = 0) :
    rank Ranked.key (admittedRows rows clock budget) r = aheadAtFocus rows clock row := by
  obtain ⟨hordinal, hid, -⟩ := readRow_ranked rows clock budget hread
  unfold rank admittedRows aheadAtFocus independentRows
  rw [countP_filterMap, countP_filter]
  refine countP_congr fun other _ => ?_
  rw [Bool.and_eq_true, Bool.and_eq_true, @atFocus_iff rows clock budget, decide_eq_true_eq,
    decide_eq_true_eq]
  cases hother : readRow rows clock budget other with
  | ranked s =>
    obtain ⟨hordinal', hid', -⟩ := readRow_ranked rows clock budget hother
    have hkey : s.key < r.key ↔ s.distance = 0 ∧
        toLex (s.ordinal, s.evidenceId) < toLex (r.ordinal, r.evidenceId) := by
      unfold Ranked.key
      rw [Prod.Lex.toLex_lt_toLex, hzero]
      exact ⟨fun h => h.resolve_left (Nat.not_lt_zero _), .inr⟩
    simp only [Reading.ranked?_ranked, Option.map_some, Option.getD_some, decide_eq_true_eq, hkey,
      hordinal, hordinal', ← hid, ← hid', Reading.ranked.injEq, exists_eq_left']
    tauto
  | _ => simp [Reading.ranked?]

end

section

variable {rows : List NeighborhoodRow} (hids : (rows.map NeighborhoodRow.evidenceId).Nodup)
  (traces : List String) (clock : FastTriageClockCompatibility)
  (budget : FastTriageNeighborhoodBudget)

include hids

variable {row : NeighborhoodRow}

theorem category_origin (hrow : row ∈ rows) {category : FastTriageEvidenceCategory}
    (h : (classifyNeighborhood rows traces clock budget).categories row.evidenceId =
      some category) (hcontext : category.isContext = true) :
    row.scope = .independent ∧ ∃ r, readRow rows clock budget row = .ranked r ∧
      rank Ranked.key (admittedRows rows clock budget) r < budget.maxContextRows.toNat ∧
      r.category = category := by
  cases hscope : row.scope with
  | candidate =>
    rw [category_of_mem hids hrow, Option.some.injEq, categoryOf_candidate hscope] at h
    subst h
    rcases focusCategory_cases rows traces row with h | h | ⟨h, -⟩ <;> rw [h] at hcontext <;>
      cases hcontext
  | independent =>
    rcases @category_cases rows traces clock budget hids row
        (mem_independentRows.mpr ⟨hrow, hscope⟩) with ⟨r, hread, hrank, hr⟩ | ⟨-, hnoise⟩
    · rw [hr, Option.some.injEq] at h
      exact ⟨rfl, r, hread, hrank, h⟩
    · rw [hnoise, Option.some.injEq] at h
      subst h
      cases hcontext

theorem preceding_before (hrow : row ∈ rows)
    (h : (classifyNeighborhood rows traces clock budget).categories row.evidenceId =
      some .precedingSameSource) : ∃ ordinal v, row.ordinal = some ordinal ∧
        FocusAt rows row.sourceLabel v ∧ ordinal < v ∧
          v - ordinal ≤ budget.sameSourceRadius.toNat := by
  obtain ⟨-, r, hread, -, hr⟩ := category_origin hids traces clock budget hrow h rfl
  obtain ⟨hordinal, -, ⟨v, hv, hdistance, hradius, hcategory⟩ | ⟨-, -, hcategory⟩⟩ :=
    readRow_ranked rows clock budget hread
  · rw [hr] at hcategory
    split at hcategory
    · rename_i hlt
      refine ⟨r.ordinal, v, hordinal, mem_focusOrdinals.mp hv.1, hlt, ?_⟩
      unfold absDiff at hdistance
      split at hdistance <;> omega
    · cases hcategory
  · rw [hr] at hcategory
    cases hcategory

theorem propagation_later (hrow : row ∈ rows)
    (h : (classifyNeighborhood rows traces clock budget).categories row.evidenceId =
      some .propagation) : row.scope = .candidate ∧ row.candidateId ∈ traces ∧
      ∃ first ordinal ordinal', first.candidateId = row.candidateId ∧
        Earliest rows first ordinal ∧ row.ordinal = some ordinal' ∧
          first.sourceLabel ≠ row.sourceLabel ∧ ordinal < ordinal' := by
  cases hscope : row.scope with
  | independent =>
    rcases @category_cases rows traces clock budget hids row
        (mem_independentRows.mpr ⟨hrow, hscope⟩) with ⟨r, hread, -, hr⟩ | ⟨-, hnoise⟩
    · have hcontext := ranked_isContext hread
      rw [hr, Option.some.injEq] at h
      rw [h] at hcontext
      cases hcontext
    · rw [hnoise] at h
      cases h
  | candidate =>
    rw [category_of_mem hids hrow, Option.some.injEq, categoryOf_candidate hscope] at h
    rcases focusCategory_cases rows traces row with h' | h' | ⟨-, htrace, key, ordinal', hkey,
      hordinal, hsource, hlater⟩
    · rw [h'] at h
      cases h
    · rw [h'] at h
      cases h
    · obtain ⟨hmem, hleast⟩ := extreme_eq_some.mp hkey
      obtain ⟨first, hfirst, hkeyOf⟩ := mem_filterMap.mp hmem
      obtain ⟨hfirstMem, hfirstScope⟩ := mem_focusRows.mp hfirst
      split at hkeyOf
      · rename_i hcandidate
        obtain ⟨ordinal, hfirstOrdinal, rfl⟩ := Option.map_eq_some_iff.mp hkeyOf
        refine ⟨rfl, htrace, first, ordinal, ordinal', hcandidate, ⟨hfirstMem, hfirstScope,
          hfirstOrdinal, fun other hother hotherScope hsame p hp => ?_⟩, hordinal,
          fun heq => hsource heq.symm, hlater⟩
        refine hleast _ (mem_filterMap.mpr ⟨other, mem_focusRows.mpr ⟨hother, hotherScope⟩, ?_⟩)
        rw [if_pos (hsame.trans hcandidate), hp]
        rfl
      · cases hkeyOf

/-- The contracts hold exactly where no row stands at a focus ordinal for itself. -/
theorem directions_iff : ContractsHold rows traces budget
    (classifyNeighborhood rows traces clock budget) ↔ StandsApart rows clock budget := by
  constructor
  · intro h row hrow hscope ordinal hordinal hfocus hahead
    have hmem := mem_focusOrdinals.mpr hfocus
    obtain ⟨v, hv, heq⟩ := readRow_same rows clock budget hordinal (ne_nil_of_mem hmem)
    have hzero := hv.eq_zero.mpr hmem
    obtain rfl := absDiff_eq_zero.mp hzero
    rw [hzero, if_neg (Nat.not_lt_zero _), if_neg (Nat.lt_irrefl _)] at heq
    have hrank := rank_atFocus heq rfl
    have hcategory : (classifyNeighborhood rows traces clock budget).categories row.evidenceId =
        some .followingSameSource := by
      rw [category_of_mem hids hrow]
      unfold categoryOf
      rw [hscope, heq]
      dsimp only
      rw [hrank, if_pos hahead]
    obtain ⟨o, v', ho, hfocus', hlt, hradius⟩ := (h row hrow).2.1 hcategory
    rw [hordinal, Option.some.injEq] at ho
    subst ho
    exact ⟨v', hfocus', hlt, hradius⟩
  · intro h row hrow
    refine ⟨preceding_before hids traces clock budget hrow, fun hfollowing => ?_,
      propagation_later hids traces clock budget hrow⟩
    obtain ⟨hscope, r, hread, hrank, hr⟩ :=
      category_origin hids traces clock budget hrow hfollowing rfl
    obtain ⟨hordinal, -, ⟨v, hv, hdistance, hradius, hcategory⟩ | ⟨-, -, hcategory⟩⟩ :=
      readRow_ranked rows clock budget hread
    · rcases Nat.lt_trichotomy v r.ordinal with hlt | rfl | hgt
      · refine ⟨r.ordinal, v, hordinal, mem_focusOrdinals.mp hv.1, hlt, ?_⟩
        unfold absDiff at hdistance
        split at hdistance <;> omega
      · have hzero : r.distance = 0 := hdistance.trans (absDiff_eq_zero.mpr rfl)
        rw [rank_atFocus hread hzero] at hrank
        obtain ⟨v', hfocus', hlt, hradius'⟩ :=
          h row hrow hscope r.ordinal hordinal (mem_focusOrdinals.mp hv.1) hrank
        exact ⟨r.ordinal, v', hordinal, hfocus', hlt, hradius'⟩
      · rw [hr, if_pos hgt] at hcategory
        cases hcategory
    · rw [hr] at hcategory
      cases hcategory

end

theorem directions_around : ContractsHold aroundFocus [] ⟨2, 2, 1⟩
    (classifyNeighborhood aroundFocus [] .orderOnly ⟨2, 2, 1⟩) := by
  refine (directions_iff (by decide) [] .orderOnly ⟨2, 2, 1⟩).mpr ?_
  intro row hrow hscope ordinal hordinal hfocus
  have hat : ∀ row ∈ aroundFocus, row.scope = .independent → ∀ ordinal ∈ row.ordinal,
      ordinal ∉ focusOrdinals aroundFocus row.sourceLabel := by
    decide
  exact absurd (mem_focusOrdinals.mpr hfocus) (hat row hrow hscope ordinal hordinal)

/-- A row of the chronology at the ordinal of the focus row. -/
def onFocus : List NeighborhoodRow :=
  [⟨"e1", "c1", "app.log", .candidate, some 5⟩, ⟨"e2", "c0", "app.log", .independent, some 5⟩]

/-- It is said to follow, and no focus row is before it. -/
theorem following_at_focus :
    (classifyNeighborhood onFocus [] .orderOnly ⟨2, 2, 1⟩).categories "e2" =
      some .followingSameSource ∧
    ¬ ContractsHold onFocus [] ⟨2, 2, 1⟩
      (classifyNeighborhood onFocus [] .orderOnly ⟨2, 2, 1⟩) := by
  have hcategory : (classifyNeighborhood onFocus [] .orderOnly ⟨2, 2, 1⟩).categories "e2" =
      some .followingSameSource := by
    rfl
  refine ⟨hcategory, fun h => ?_⟩
  obtain ⟨ordinal, v, hordinal, hfocus, hlt, -⟩ :=
    (h ⟨"e2", "c0", "app.log", .independent, some 5⟩ (by decide)).2.1 hcategory
  obtain rfl : 5 = ordinal := Option.some.inj hordinal
  have hv : v ∈ [5] := mem_focusOrdinals.mpr hfocus
  rw [mem_singleton] at hv
  omega

end ContextDesk
