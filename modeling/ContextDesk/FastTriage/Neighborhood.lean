import ContextDesk.FastTriage.Packet
import ContextDesk.Lib.Sorting
import ContextDesk.Lib.Rank
import ContextDesk.Lib.Table
import Mathlib.Data.Prod.Lex

/-!
# The neighborhood classifier

`classifyNeighborhood` gives each row of the host its category. The rows of the candidates are the
focus; the others are read against it (`readRow`), and what a reading admits is ranked by distance,
ordinal and id, the first `maxContextRows` of it keeping the category of the reading. The maps of
the source are in no order here: `closedNeighborhood` is the whole result in closed form, which depends on the
set of the rows alone (`classifyNeighborhood_eq`).
-/

namespace ContextDesk

open Lib List

structure FastTriageNeighborhood where
  categories : String → Option FastTriageEvidenceCategory
  withheldClockIncompatible : Nat
  withheldOutOfRadius : Nat
  withheldOverBudget : Nat

namespace FastTriageNeighborhood

def new : FastTriageNeighborhood := ⟨fun _ => none, 0, 0, 0⟩

def insert (out : FastTriageNeighborhood) (evidenceId : String)
    (category : FastTriageEvidenceCategory) : FastTriageNeighborhood :=
  { out with categories := insertAll out.categories [(evidenceId, category)] }

end FastTriageNeighborhood

def absDiff (a b : Nat) : Nat := if a < b then b - a else a - b

def U64_MAX : Nat := 2 ^ 64 - 1

def NeighborhoodRow.ordinal (row : NeighborhoodRow) : Option Nat :=
  row.chronologyOrdinal.map UInt64.toNat

structure Ranked where
  distance : Nat
  ordinal : Nat
  evidenceId : String
  category : FastTriageEvidenceCategory
  deriving DecidableEq

def Ranked.key (r : Ranked) : Nat ×ₗ Nat ×ₗ String :=
  toLex (r.distance, toLex (r.ordinal, r.evidenceId))

/-- What the loop over the independent rows finds about one of them. -/
inductive Reading where
  | noOrdinal
  | clockIncompatible
  | outOfRadius
  | ranked (r : Ranked)
  deriving DecidableEq

def Reading.ranked? : Reading → Option Ranked
  | .ranked r => some r
  | _ => none

@[simp] theorem Reading.ranked?_ranked (r : Ranked) : (Reading.ranked r).ranked? = some r := rfl

section

variable (rows : List NeighborhoodRow) (traces : List String)
  (clock : FastTriageClockCompatibility) (budget : FastTriageNeighborhoodBudget)

def focusRows : List NeighborhoodRow := rows.filter fun row => row.scope = .candidate

def independentRows : List NeighborhoodRow := rows.filter fun row => row.scope = .independent

/-- `candidate_first`: of the rows of the candidate that have an ordinal, the least ordinal and
source. -/
def candidateFirst (candidateId : String) : Option (Nat ×ₗ String) :=
  extreme true ((focusRows rows).filterMap fun row =>
    if row.candidateId = candidateId then
      row.ordinal.map fun ordinal => toLex (ordinal, row.sourceLabel)
    else none)

/-- `focus_ordinals_by_source`. A source without such an ordinal has no entry. -/
def focusOrdinals (sourceLabel : String) : List Nat :=
  (focusRows rows).filterMap fun row =>
    if row.sourceLabel = sourceLabel then row.ordinal else none

def allFocusOrdinals : List Nat := (focusRows rows).filterMap NeighborhoodRow.ordinal

def focusCategory (row : NeighborhoodRow) : FastTriageEvidenceCategory :=
  match decide (row.candidateId ∈ traces), candidateFirst rows row.candidateId, row.ordinal with
  | true, some first, some ordinal =>
    if row.sourceLabel ≠ (ofLex first).2 then
      if (ofLex first).1 < ordinal then .propagation else .traceLinked
    else .focus
  | true, some first, none =>
    if row.sourceLabel ≠ (ofLex first).2 then .traceLinked else .focus
  | _, _, _ => .focus

def readRow (row : NeighborhoodRow) : Reading :=
  match row.ordinal with
  | none => .noOrdinal
  | some ordinal =>
    if focusOrdinals rows row.sourceLabel ≠ [] then
      let nearest := ofLex ((extreme true ((focusOrdinals rows row.sourceLabel).map fun value =>
        toLex (absDiff value ordinal, value))).getD (toLex (U64_MAX, ordinal)))
      if budget.sameSourceRadius.toNat < nearest.1 then .outOfRadius
      else .ranked ⟨nearest.1, ordinal, row.evidenceId,
        if ordinal < nearest.2 then .precedingSameSource else .followingSameSource⟩
    else if clock ≠ .resolvedComparable then .clockIncompatible
    else
      let nearest := (extreme true ((allFocusOrdinals rows).map fun value =>
        absDiff value ordinal)).getD U64_MAX
      if budget.crossSourceRadius.toNat < nearest then .outOfRadius
      else .ranked ⟨nearest, ordinal, row.evidenceId, .crossSourceTemporal⟩

/-- One round of the loop over the independent rows. -/
def takeRow (s : FastTriageNeighborhood × List Ranked) (row : NeighborhoodRow) :
    FastTriageNeighborhood × List Ranked :=
  match readRow rows clock budget row with
  | .noOrdinal => (s.1.insert row.evidenceId .independentNoise, s.2)
  | .clockIncompatible =>
    ({ s.1.insert row.evidenceId .independentNoise with
        withheldClockIncompatible := s.1.withheldClockIncompatible + 1 }, s.2)
  | .outOfRadius =>
    ({ s.1.insert row.evidenceId .independentNoise with
        withheldOutOfRadius := s.1.withheldOutOfRadius + 1 }, s.2)
  | .ranked r => (s.1, s.2 ++ [r])

/-- The loop over the ranked rows, from the index on. -/
def settleRows : Nat → FastTriageNeighborhood → List Ranked → FastTriageNeighborhood
  | _, out, [] => out
  | index, out, r :: rest =>
    if index < budget.maxContextRows.toNat then
      settleRows (index + 1) (out.insert r.evidenceId r.category) rest
    else
      settleRows (index + 1) { out.insert r.evidenceId .independentNoise with
        withheldOverBudget := out.withheldOverBudget + 1 } rest

def classifyNeighborhood : FastTriageNeighborhood :=
  let out := (focusRows rows).foldl
    (fun out row => out.insert row.evidenceId (focusCategory rows traces row)) .new
  let s := (independentRows rows).foldl (takeRow rows clock budget) (out, [])
  settleRows budget 0 s.1 (s.2.insertionSort fun a b => a.key ≤ b.key)

end

/-! ## The result in closed form -/

section

variable (rows : List NeighborhoodRow) (traces : List String)
  (clock : FastTriageClockCompatibility) (budget : FastTriageNeighborhoodBudget)

def admittedRows : List Ranked :=
  (independentRows rows).filterMap fun row => (readRow rows clock budget row).ranked?

def categoryOf (row : NeighborhoodRow) : FastTriageEvidenceCategory :=
  match row.scope with
  | .candidate => focusCategory rows traces row
  | .independent =>
    match readRow rows clock budget row with
    | .ranked r =>
      if rank Ranked.key (admittedRows rows clock budget) r < budget.maxContextRows.toNat then
        r.category
      else .independentNoise
    | _ => .independentNoise

def closedNeighborhood : FastTriageNeighborhood where
  categories id := (rows.find? fun row => row.evidenceId = id).map
    (categoryOf rows traces clock budget)
  withheldClockIncompatible := (independentRows rows).countP fun row =>
    readRow rows clock budget row = .clockIncompatible
  withheldOutOfRadius := (independentRows rows).countP fun row =>
    readRow rows clock budget row = .outOfRadius
  withheldOverBudget := (admittedRows rows clock budget).length - budget.maxContextRows.toNat

/-- The rows that are noise from their reading on. -/
def withheldEntries (l : List NeighborhoodRow) : List (String × FastTriageEvidenceCategory) :=
  (l.filter fun row => (readRow rows clock budget row).ranked? = none).map fun row =>
    (row.evidenceId, .independentNoise)

def settledEntries (place : Nat) (l : List Ranked) : List (String × FastTriageEvidenceCategory) :=
  (l.take place).map (fun r => (r.evidenceId, r.category)) ++
    (l.drop place).map fun r => (r.evidenceId, .independentNoise)

theorem insert_eq (out : FastTriageNeighborhood) (l : List NeighborhoodRow)
    (f : NeighborhoodRow → FastTriageEvidenceCategory) :
    l.foldl (fun out row => out.insert row.evidenceId (f row)) out =
      { out with categories := insertAll out.categories (l.map fun row => (row.evidenceId, f row)) }
    := by
  induction l generalizing out with
  | nil => rfl
  | cons row l ih =>
    rw [foldl_cons, ih]
    rfl

variable (l : List NeighborhoodRow)

theorem takeRows_eq (s : FastTriageNeighborhood × List Ranked) :
    l.foldl (takeRow rows clock budget) s =
      ({ categories := insertAll s.1.categories (withheldEntries rows clock budget l)
         withheldClockIncompatible := s.1.withheldClockIncompatible +
           l.countP fun row => readRow rows clock budget row = .clockIncompatible
         withheldOutOfRadius := s.1.withheldOutOfRadius +
           l.countP fun row => readRow rows clock budget row = .outOfRadius
         withheldOverBudget := s.1.withheldOverBudget },
       s.2 ++ l.filterMap fun row => (readRow rows clock budget row).ranked?) := by
  induction l generalizing s with
  | nil => simp [withheldEntries, insertAll]
  | cons row l ih =>
    rw [foldl_cons, ih, countP_cons, countP_cons, filterMap_cons]
    unfold takeRow withheldEntries
    cases hread : readRow rows clock budget row <;>
      simp [hread, Reading.ranked?, insertAll, FastTriageNeighborhood.insert] <;> omega

theorem settleRows_eq (index : Nat) (out : FastTriageNeighborhood) (l : List Ranked) :
    settleRows budget index out l =
      { out with
        categories := insertAll out.categories
          (settledEntries (budget.maxContextRows.toNat - index) l)
        withheldOverBudget := out.withheldOverBudget +
          (l.length - (budget.maxContextRows.toNat - index)) } := by
  induction l generalizing index out with
  | nil => simp [settleRows, settledEntries, insertAll]
  | cons r l ih =>
    unfold settleRows
    by_cases hindex : index < budget.maxContextRows.toNat
    · obtain ⟨n, hn⟩ : ∃ n, budget.maxContextRows.toNat - index = n + 1 :=
        ⟨budget.maxContextRows.toNat - index - 1, by omega⟩
      have hrest : budget.maxContextRows.toNat - (index + 1) = n := by omega
      rw [if_pos hindex, ih, hn, hrest]
      simp [settledEntries, insertAll, FastTriageNeighborhood.insert]
    · have hnone : budget.maxContextRows.toNat - index = 0 := by omega
      have hrest : budget.maxContextRows.toNat - (index + 1) = 0 := by omega
      rw [if_neg hindex, ih, hnone, hrest]
      simp [settledEntries, insertAll, FastTriageNeighborhood.insert]
      omega

/-- `v` is the focus ordinal nearest to `ordinal`, the least of those that are. -/
def Nearest (focus : List Nat) (ordinal v : Nat) : Prop :=
  v ∈ focus ∧ ∀ w ∈ focus, absDiff v ordinal < absDiff w ordinal ∨
    (absDiff v ordinal = absDiff w ordinal ∧ v ≤ w)

theorem exists_nearest {focus : List Nat} (hne : focus ≠ []) (ordinal : Nat) :
    ∃ v, Nearest focus ordinal v ∧
      extreme true (focus.map fun value => toLex (absDiff value ordinal, value)) =
        some (toLex (absDiff v ordinal, v)) := by
  obtain ⟨a, ha⟩ := extreme_isSome true
    (l := focus.map fun value => toLex (absDiff value ordinal, value)) (by simpa using hne)
  obtain ⟨hmem, hleast⟩ := extreme_eq_some.mp ha
  obtain ⟨v, hv, rfl⟩ := mem_map.mp hmem
  refine ⟨v, ⟨hv, fun w hw => ?_⟩, ha⟩
  have hle := hleast _ (mem_map_of_mem hw)
  exact Prod.Lex.toLex_le_toLex.mp hle

variable {row : NeighborhoodRow}

theorem readRow_same {ordinal : Nat} (hordinal : row.ordinal = some ordinal)
    (hfocus : focusOrdinals rows row.sourceLabel ≠ []) :
    ∃ v, Nearest (focusOrdinals rows row.sourceLabel) ordinal v ∧
      readRow rows clock budget row =
        if budget.sameSourceRadius.toNat < absDiff v ordinal then .outOfRadius
        else .ranked ⟨absDiff v ordinal, ordinal, row.evidenceId,
          if ordinal < v then .precedingSameSource else .followingSameSource⟩ := by
  obtain ⟨v, hv, hleast⟩ := exists_nearest hfocus ordinal
  refine ⟨v, hv, ?_⟩
  unfold readRow
  rw [hordinal]
  dsimp only
  rw [if_pos hfocus, hleast]
  rfl

theorem readRow_other {ordinal : Nat} (hordinal : row.ordinal = some ordinal)
    (hfocus : focusOrdinals rows row.sourceLabel = []) :
    readRow rows clock budget row =
      if clock ≠ .resolvedComparable then .clockIncompatible
      else if budget.crossSourceRadius.toNat < (extreme true ((allFocusOrdinals rows).map
          fun value => absDiff value ordinal)).getD U64_MAX then .outOfRadius
      else .ranked ⟨(extreme true ((allFocusOrdinals rows).map
          fun value => absDiff value ordinal)).getD U64_MAX, ordinal, row.evidenceId,
        .crossSourceTemporal⟩ := by
  unfold readRow
  rw [hordinal]
  dsimp only
  rw [if_neg (not_not.mpr hfocus)]

theorem readRow_none (h : row.ordinal = none) : readRow rows clock budget row = .noOrdinal := by
  unfold readRow
  rw [h]

/-- What a row that is ranked stands for. -/
theorem readRow_ranked {r : Ranked} (h : readRow rows clock budget row = .ranked r) :
    row.ordinal = some r.ordinal ∧ r.evidenceId = row.evidenceId ∧
      ((∃ v, Nearest (focusOrdinals rows row.sourceLabel) r.ordinal v ∧
          r.distance = absDiff v r.ordinal ∧ r.distance ≤ budget.sameSourceRadius.toNat ∧
          r.category = if r.ordinal < v then .precedingSameSource else .followingSameSource) ∨
        (focusOrdinals rows row.sourceLabel = [] ∧ clock = .resolvedComparable ∧
          r.category = .crossSourceTemporal)) := by
  cases hordinal : row.ordinal with
  | none =>
    rw [readRow_none rows clock budget hordinal] at h
    cases h
  | some ordinal =>
    by_cases hfocus : focusOrdinals rows row.sourceLabel = []
    · rw [readRow_other rows clock budget hordinal hfocus] at h
      split at h
      · cases h
      · rename_i hclock
        split at h
        · cases h
        · cases h
          exact ⟨rfl, rfl, .inr ⟨hfocus, not_not.mp hclock, rfl⟩⟩
    · obtain ⟨v, hv, heq⟩ := readRow_same rows clock budget hordinal hfocus
      rw [heq] at h
      split at h
      · cases h
      · rename_i hradius
        cases h
        exact ⟨rfl, rfl, .inl ⟨v, hv, rfl, Nat.le_of_not_lt hradius, rfl⟩⟩

theorem mem_admittedRows {r : Ranked} : r ∈ admittedRows rows clock budget ↔
    ∃ row ∈ independentRows rows, readRow rows clock budget row = .ranked r := by
  unfold admittedRows
  rw [mem_filterMap]
  refine exists_congr fun row => and_congr_right fun _ => ?_
  cases readRow rows clock budget row <;> simp [Reading.ranked?]

theorem split_scope : (focusRows l ++ independentRows l).Perm l := by
  have hscope : ∀ row : NeighborhoodRow,
      (decide (row.scope = .independent)) = !decide (row.scope = .candidate) := by
    intro row
    cases row.scope <;> rfl
  unfold focusRows independentRows
  simp only [hscope]
  exact filter_append_perm _ l

theorem admitted_ids :
    (l.filterMap fun row => (readRow rows clock budget row).ranked?).map Ranked.evidenceId =
      (l.filter fun row => ¬ (readRow rows clock budget row).ranked? = none).map
        NeighborhoodRow.evidenceId := by
  induction l with
  | nil => rfl
  | cons row l ih =>
    rw [filterMap_cons, filter_cons]
    cases hread : readRow rows clock budget row with
    | ranked r =>
      simp only [Reading.ranked?_ranked, reduceCtorEq, not_false_eq_true, decide_true, if_true,
        map_cons, ih, (readRow_ranked rows clock budget hread).2.1]
    | _ => simpa [Reading.ranked?] using ih

variable {rows} (hids : (rows.map NeighborhoodRow.evidenceId).Nodup)

include hids

theorem admitted_ids_nodup : ((admittedRows rows clock budget).map Ranked.evidenceId).Nodup := by
  unfold admittedRows
  rw [admitted_ids]
  refine hids.sublist (List.Sublist.map _ ?_)
  exact filter_sublist.trans filter_sublist

theorem sorted_strict :
    ((admittedRows rows clock budget).insertionSort fun a b => a.key ≤ b.key).Pairwise
      fun a b => a.key < b.key := by
  have hperm := perm_insertionSort (fun a b : Ranked => a.key ≤ b.key)
    (admittedRows rows clock budget)
  have hne : ((admittedRows rows clock budget).insertionSort fun a b => a.key ≤ b.key).Pairwise
      fun a b => a.evidenceId ≠ b.evidenceId :=
    pairwise_map.mp ((hperm.map _).nodup_iff.mpr (admitted_ids_nodup clock budget hids))
  have hle := pairwise_insertionSort (fun a b : Ranked => a.key ≤ b.key)
    (admittedRows rows clock budget)
  refine (hle.and hne).imp fun {a b} h => lt_of_le_of_ne h.1 fun heq => h.2 ?_
  exact congrArg (fun k => (ofLex (ofLex k).2).2) heq

theorem classifyNeighborhood_eq : classifyNeighborhood rows traces clock budget =
    closedNeighborhood rows traces clock budget := by
  have hsorted := sorted_strict clock budget hids
  have hperm := perm_insertionSort (fun a b : Ranked => a.key ≤ b.key)
    (admittedRows rows clock budget)
  unfold classifyNeighborhood closedNeighborhood
  rw [insert_eq]
  dsimp only
  rw [takeRows_eq, settleRows_eq]
  simp only [FastTriageNeighborhood.new, Nat.zero_add, nil_append, Nat.sub_zero,
    length_insertionSort, ← insertAll_append]
  rw [FastTriageNeighborhood.mk.injEq]
  refine ⟨?_, rfl, rfl, rfl⟩
  -- the ids of the entries are those of the rows, so each row has the one entry under its id
  have hkeys : (((focusRows rows).map fun row => (row.evidenceId, focusCategory rows traces row)) ++
      (withheldEntries rows clock budget (independentRows rows) ++
        settledEntries budget.maxContextRows.toNat ((admittedRows rows clock budget).insertionSort
          fun a b => a.key ≤ b.key))).map Prod.fst |>.Perm (rows.map NeighborhoodRow.evidenceId) := by
    refine List.Perm.trans ?_ ((split_scope rows).map _)
    rw [map_append, map_append, map_append, map_map]
    refine List.Perm.append (List.Perm.refl _) ?_
    have hsettled : (settledEntries budget.maxContextRows.toNat ((admittedRows rows clock
        budget).insertionSort fun a b => a.key ≤ b.key)).map Prod.fst |>.Perm
        ((admittedRows rows clock budget).map Ranked.evidenceId) := by
      unfold settledEntries
      rw [map_append, map_map, map_map]
      simp only [Function.comp_def]
      rw [← map_append, take_append_drop]
      exact hperm.map _
    refine (hsettled.append_left _).trans ?_
    unfold admittedRows withheldEntries
    rw [admitted_ids, map_map]
    simp only [Function.comp_def, decide_not]
    rw [← map_append]
    exact (filter_append_perm _ _).map _
  have hnodup := hkeys.nodup_iff.mpr hids
  rw [append_assoc]
  funext id
  cases hfind : rows.find? fun row => row.evidenceId = id with
  | none =>
    refine insertAll_of_notMem fun hmem => ?_
    obtain ⟨row, hrow, heq⟩ := mem_map.mp (hkeys.mem_iff.mp hmem)
    exact absurd (decide_eq_true heq) (find?_eq_none.mp hfind row hrow)
  | some row =>
    have hrow := mem_of_find?_eq_some hfind
    obtain rfl : row.evidenceId = id := by simpa using find?_some hfind
    refine insertAll_of_mem hnodup ?_
    rw [mem_append, mem_append]
    unfold categoryOf
    cases hscope : row.scope with
    | candidate =>
      refine .inl (mem_map.mpr ⟨row, ?_, rfl⟩)
      exact mem_filter.mpr ⟨hrow, decide_eq_true hscope⟩
    | independent =>
      have hindependent : row ∈ independentRows rows :=
        mem_filter.mpr ⟨hrow, decide_eq_true hscope⟩
      refine .inr ?_
      dsimp only
      split
      · rename_i r hread
        have hr := (mem_admittedRows rows clock budget).mpr ⟨row, hindependent, hread⟩
        have hr' := hperm.mem_iff.mpr hr
        rw [← (readRow_ranked rows clock budget hread).2.1, ← rank_perm hperm]
        refine .inr (mem_append.mpr ?_)
        split
        · rename_i hrank
          exact .inl (mem_map.mpr ⟨r, (mem_take_iff_rank hsorted hr').mpr hrank, rfl⟩)
        · rename_i hrank
          rw [← mem_take_iff_rank hsorted hr'] at hrank
          rw [← take_append_drop budget.maxContextRows.toNat (List.insertionSort _ _),
            mem_append] at hr'
          exact .inr (mem_map.mpr ⟨r, hr'.resolve_left hrank, rfl⟩)
      · rename_i hread
        refine .inl (mem_map.mpr ⟨row, mem_filter.mpr ⟨hindependent, ?_⟩, rfl⟩)
        cases hr : readRow rows clock budget row with
        | ranked r => exact absurd hr (hread r)
        | _ => rfl

end

/-! ## The rows in another order -/

section

variable {rows rows' : List NeighborhoodRow} (h : rows.Perm rows')
  (clock : FastTriageClockCompatibility) (budget : FastTriageNeighborhoodBudget)

include h

theorem focusRows_perm : (focusRows rows).Perm (focusRows rows') := h.filter _

theorem independentRows_perm : (independentRows rows).Perm (independentRows rows') := h.filter _

theorem focusCategory_perm (traces : List String) :
    focusCategory rows traces = focusCategory rows' traces := by
  have hfirst : candidateFirst rows = candidateFirst rows' :=
    funext fun _ => extreme_congr fun _ => ((focusRows_perm h).filterMap _).mem_iff
  funext row
  unfold focusCategory
  rw [hfirst]

theorem readRow_perm : readRow rows clock budget = readRow rows' clock budget := by
  have hfocus : ∀ source, (focusOrdinals rows source).Perm (focusOrdinals rows' source) :=
    fun _ => (focusRows_perm h).filterMap _
  have hall : (allFocusOrdinals rows).Perm (allFocusOrdinals rows') :=
    (focusRows_perm h).filterMap _
  funext row
  have hne : focusOrdinals rows row.sourceLabel ≠ [] ↔ focusOrdinals rows' row.sourceLabel ≠ [] :=
    not_congr ⟨fun hnil => (hnil ▸ hfocus _).nil_eq.symm, fun hnil => (hnil ▸ hfocus _).eq_nil⟩
  have hnearest : ∀ ordinal, extreme true ((focusOrdinals rows row.sourceLabel).map
        fun value => toLex (absDiff value ordinal, value)) =
      extreme true ((focusOrdinals rows' row.sourceLabel).map
        fun value => toLex (absDiff value ordinal, value)) :=
    fun _ => extreme_congr fun _ => ((hfocus _).map _).mem_iff
  have hcross : ∀ ordinal, extreme true ((allFocusOrdinals rows).map
        fun value => absDiff value ordinal) =
      extreme true ((allFocusOrdinals rows').map fun value => absDiff value ordinal) :=
    fun _ => extreme_congr fun _ => (hall.map _).mem_iff
  unfold readRow
  simp only [hne, hnearest, hcross]

theorem admittedRows_perm :
    (admittedRows rows clock budget).Perm (admittedRows rows' clock budget) := by
  unfold admittedRows
  rw [readRow_perm h]
  exact (independentRows_perm h).filterMap _

theorem categoryOf_perm (traces : List String) :
    categoryOf rows traces clock budget = categoryOf rows' traces clock budget := by
  funext row
  unfold categoryOf
  rw [focusCategory_perm h, readRow_perm h]
  simp only [rank_perm (admittedRows_perm h clock budget)]

theorem classifyNeighborhood_perm (traces : List String)
    (hids : (rows.map NeighborhoodRow.evidenceId).Nodup) :
    classifyNeighborhood rows traces clock budget =
      classifyNeighborhood rows' traces clock budget := by
  rw [classifyNeighborhood_eq traces clock budget hids,
    classifyNeighborhood_eq traces clock budget ((h.map _).nodup_iff.mp hids)]
  unfold closedNeighborhood
  rw [categoryOf_perm h, readRow_perm h, (admittedRows_perm h clock budget).length_eq]
  simp only [(independentRows_perm h).countP_eq, FastTriageNeighborhood.mk.injEq, and_true]
  funext id
  rw [find?_eq_of_perm h fun a ha b hb hai hbi => Distinct.eq_of_key hids ha hb ?_]
  exact (of_decide_eq_true hai).trans (of_decide_eq_true hbi).symm

end

end ContextDesk
