import ContextDesk.Lib.Buckets
import ContextDesk.Lib.Outcome

/-!
# Histograms

A range of integers is cut into slots of one width (`Slots`): every number of the range lies in the
interval of its quotient, and the intervals tile the range. `histogram` counts the elements of each
slot. `groupBy` are the groups of a `GROUP BY` with `ORDER BY`; a loop over them that adds the size
of each group to its slot builds the histogram of the elements (`foldlM_groups`,
`histogram_append`).
-/

namespace ContextDesk.Lib

open List

/-! ## Slots -/

/-- Half-open intervals that follow each other from one bound to another. -/
inductive Tiles : Int → Int → List (Int × Int) → Prop
  | last {a b : Int} (h : a < b) : Tiles a b [(a, b)]
  | cons {a m b : Int} {l : List (Int × Int)} (h : a < m) (rest : Tiles m b l) :
      Tiles a b ((a, m) :: l)

/-- The interval of a slot, cut off at `stop`. -/
def slotInterval (origin width stop : Int) (i : Nat) : Int × Int :=
  (origin + i * width, min (origin + (i + 1) * width) stop)

/-- So many slots of this width are needed from `origin` to `stop`. -/
structure Slots (origin width stop : Int) (n : Nat) : Prop where
  pos : 1 ≤ n
  width_pos : 1 ≤ width
  reach : stop ≤ origin + n * width
  needed : origin + (n - 1) * width < stop

section Slots

variable {origin width stop : Int} {n : Nat}

/-- A number lies in the interval of its quotient. -/
theorem Slots.slot (h : Slots origin width stop n) {x : Int} (h0 : origin ≤ x) (h1 : x < stop) :
    ∃ i < n, (x - origin) / width = i ∧ (slotInterval origin width stop i).1 ≤ x ∧
      x < (slotInterval origin width stop i).2 := by
  have hw := h.width_pos
  have hreach := h.reach
  have hq0 : 0 ≤ (x - origin) / width := Int.ediv_nonneg (by omega) (by omega)
  have hqn : (x - origin) / width < n := by
    rw [Int.ediv_lt_iff_lt_mul (by omega)]
    omega
  refine ⟨((x - origin) / width).toNat, by omega, by omega, ?_, ?_⟩
  · have := Int.ediv_mul_le (x - origin) (show width ≠ 0 by omega)
    simp only [slotInterval, Int.toNat_of_nonneg hq0]
    omega
  · have := Int.lt_ediv_add_one_mul_self (x - origin) (show 0 < width by omega)
    simp only [slotInterval, Int.toNat_of_nonneg hq0]
    omega

/-- The intervals tile the range. -/
theorem Slots.tiles (h : Slots origin width stop n) :
    Tiles origin stop ((List.range n).map (slotInterval origin width stop)) := by
  have hw := h.width_pos
  have hrest : ∀ k i, i + k + 1 = n → Tiles (origin + i * width) stop
      ((List.range' i (k + 1)).map (slotInterval origin width stop)) := by
    intro k
    induction k with
    | zero =>
      intro i hi
      have hcut : min (origin + (i + 1) * width) stop = stop := by
        have := h.reach
        rw [← hi] at this
        exact min_eq_right (by push_cast at this; simpa using this)
      have hlt := h.needed
      rw [← hi] at hlt
      have : Tiles (origin + i * width) stop [(origin + i * width, stop)] :=
        .last (by push_cast at hlt; simpa using hlt)
      simpa [slotInterval, hcut] using this
    | succ k ih =>
      intro i hi
      have hcut : min (origin + (i + 1) * width) stop = origin + (i + 1) * width := by
        have hlt := h.needed
        have hle : ((i : Int) + 1) * width ≤ (n - 1) * width :=
          Int.mul_le_mul_of_nonneg_right (by omega) (by omega)
        exact min_eq_left (by omega)
      have hnext := ih (i + 1) (by omega)
      rw [range'_succ, map_cons, slotInterval, hcut]
      refine .cons ?_ (by push_cast at hnext; exact hnext)
      have : ((i : Int) + 1) * width = i * width + width := by ring
      omega
  have := hrest (n - 1) 0 (by have := h.pos; omega)
  rw [Nat.sub_add_cancel h.pos, ← range_eq_range'] at this
  simpa using this

/-- The least width that makes `m` slots enough, and the number of slots of that width; the
dividend may be cut off at a limit that `m` slots do not exceed. -/
theorem slots_of_quotients (origin limit : Int) {span : Int} {m : Nat} (hm : 1 ≤ m)
    (hspan : 1 ≤ span) (hlimit : span + m - 1 ≤ limit) (hwidth : width = (span + (m - 1)) / m) :
    1 ≤ width ∧ ∃ n : Nat, min (span + (width - 1)) limit / width = n ∧ n ≤ m ∧
      Slots origin width (origin + span) n := by
  have hm' : (0 : Int) < m := by omega
  have hreach : span ≤ m * width := by
    have := Int.lt_ediv_add_one_mul_self (span + (m - 1)) hm'
    rw [← hwidth] at this
    have : (width + 1) * m = m * width + m := by ring
    omega
  have hle : m * width ≤ span + (m - 1) := by
    have := Int.ediv_mul_le (span + (m - 1)) (show (m : Int) ≠ 0 by omega)
    rw [← hwidth] at this
    linarith
  have hw : 1 ≤ width := by
    by_contra hneg
    have : m * width ≤ m * 0 := Int.mul_le_mul_of_nonneg_left (by omega) (by omega)
    omega
  refine ⟨hw, ?_⟩
  generalize hq : min (span + (width - 1)) limit / width = q
  have hlow : q * width ≤ min (span + (width - 1)) limit := by
    rw [← hq]
    exact Int.ediv_mul_le _ (by omega)
  have hhigh : min (span + (width - 1)) limit < (q + 1) * width := by
    rw [← hq]
    exact Int.lt_ediv_add_one_mul_self _ (by omega)
  have hsucc : (q + 1) * width = q * width + width := by ring
  have hpred : (q - 1) * width = q * width - width := by ring
  have hneeded : (q - 1) * width < span := by omega
  have hqm : q ≤ m := by
    have : (q - 1) * width < m * width := by omega
    have := lt_of_mul_lt_mul_right this (by omega)
    omega
  have henough : span ≤ q * width := by
    rcases le_or_gt (span + (width - 1)) limit with hsmall | hlarge
    · omega
    · have : m * width < (q + 1) * width := by omega
      have hmq := lt_of_mul_lt_mul_right this (by omega)
      have : m * width ≤ q * width := Int.mul_le_mul_of_nonneg_right (by omega) (by omega)
      omega
  have hq1 : 1 ≤ q := by
    by_contra hneg
    have : q * width ≤ 0 * width := Int.mul_le_mul_of_nonneg_right (by omega) (by omega)
    omega
  obtain ⟨n, rfl⟩ := Int.eq_ofNat_of_zero_le (show 0 ≤ q by omega)
  exact ⟨n, rfl, by omega, ⟨by omega, hw, by omega, by omega⟩⟩

end Slots

/-! ## Counts -/

section Counts

variable {α κ : Type}

/-- Every element is counted at its key once. -/
theorem sum_countP_keys [DecidableEq κ] {keys : List κ} (hk : keys.Nodup) {key : α → κ}
    {l : List α} (hl : ∀ a ∈ l, key a ∈ keys) :
    (keys.map fun k => l.countP fun a => key a = k).sum = l.length := by
  induction l with
  | nil => simp
  | cons a l ih =>
    have hone : (keys.map fun k => if key a = k then 1 else 0).sum = 1 := by
      rw [← sum_toFinset _ hk, Finset.sum_ite_eq,
        if_pos (mem_toFinset.mpr (hl a mem_cons_self))]
    have hsplit : ∀ k, (a :: l).countP (fun a => key a = k) =
        l.countP (fun a => key a = k) + if key a = k then 1 else 0 := by
      intro k
      rw [countP_cons]
      simp
    simp only [hsplit, sum_map_add, hone, ih fun b hb => hl b (mem_cons_of_mem _ hb),
      length_cons]

/-- The number of elements in each of the first `n` slots. -/
def histogram (n : Nat) (slot : α → Int) (l : List α) : List Nat :=
  (List.range n).map fun i : Nat => l.countP fun a => slot a = (i : Int)

variable {n : Nat} {slot : α → Int} {l : List α}

@[simp] theorem histogram_length : (histogram n slot l).length = n := by simp [histogram]

theorem histogram_nil : histogram n slot [] = replicate n 0 := by
  simp [histogram]

theorem histogram_perm {l' : List α} (h : l.Perm l') :
    histogram n slot l = histogram n slot l' := by
  unfold histogram
  exact map_congr_left fun i _ => h.countP_eq _

/-- The counts of a histogram with all elements in its slots add up. -/
theorem histogram_sum (h : ∀ a ∈ l, 0 ≤ slot a ∧ slot a < n) :
    (histogram n slot l).sum = l.length := by
  have hnodup : ((List.range n).map fun i : Nat => (i : Int)).Nodup :=
    nodup_range.map Nat.cast_injective
  have hmem : ∀ a ∈ l, slot a ∈ (List.range n).map fun i : Nat => (i : Int) := by
    intro a ha
    obtain ⟨h0, hn⟩ := h a ha
    exact mem_map.mpr ⟨(slot a).toNat, mem_range.mpr (by omega), by omega⟩
  have hsum := sum_countP_keys hnodup hmem
  rw [map_map] at hsum
  exact hsum

/-- Elements of one slot are counted there. -/
theorem histogram_append {bucket : List α} {i : Nat} (h : ∀ a ∈ bucket, slot a = i) :
    histogram n slot (l ++ bucket) = (histogram n slot l).modify i (· + bucket.length) := by
  refine ext_getElem (by simp) fun j hj hj' => ?_
  rw [getElem_modify]
  simp only [histogram, getElem_map, getElem_range, countP_append]
  by_cases hij : i = j
  · subst hij
    rw [if_pos rfl, countP_eq_length.mpr fun a ha => decide_eq_true (h a ha)]
  · have hnone : bucket.countP (fun a => slot a = (j : Int)) = 0 := by
      refine countP_eq_zero.mpr fun a ha => ?_
      rw [h a ha]
      simpa using hij
    rw [if_neg hij, hnone, Nat.add_zero]

end Counts

/-! ## Groups -/

section Groups

variable {α κ : Type} [DecidableEq κ] {key : α → κ} {le : κ → κ → Bool} {l : List α}

/-- `GROUP BY key ORDER BY key`. -/
def groupBy (le : κ → κ → Bool) (key : α → κ) (l : List α) : List (κ × List α) :=
  (buckets key l).insertionSort fun a b => le a.1 b.1 = true

theorem groupBy_bucketed : Bucketed key l (groupBy le key l) :=
  (buckets_bucketed key l).perm (perm_insertionSort _ _)

theorem groupBy_perm (le : κ → κ → Bool) (key : α → κ) (l : List α) :
    ((groupBy le key l).flatMap Prod.snd).Perm l :=
  ((perm_insertionSort _ _).flatMap_right _).trans (buckets_perm key l)

theorem key_of_mem_group {g : κ × List α} (hg : g ∈ groupBy le key l) :
    g.2 ≠ [] ∧ ∀ a ∈ g.2, a ∈ l ∧ key a = g.1 :=
  ⟨((groupBy_bucketed.mem_iff g).mp hg).2, fun _ ha => (groupBy_bucketed.mem_bucket hg).mp ha⟩

/-- The elements of some groups in front are not more than there are elements. -/
theorem length_front_le {front back : List (κ × List α)}
    (h : groupBy le key l = front ++ back) : (front.flatMap Prod.snd).length ≤ l.length := by
  rw [← (groupBy_perm le key l).length_eq, h, flatMap_append, length_append]
  exact Nat.le_add_right _ _

end Groups

/-- A loop keeps what each of its steps keeps. -/
theorem foldlM_invariant {α σ : Type} {step : σ → α → Outcome σ} (P : List α → σ → Prop)
    {l : List α} {s : σ} (h0 : P [] s)
    (hstep : ∀ front a back s, l = front ++ a :: back → P front s →
      ∃ s', step s a = .ok s' ∧ P (front ++ [a]) s') :
    ∃ s', l.foldlM step s = .ok s' ∧ P l s' := by
  have hrun : ∀ back front s, l = front ++ back → P front s →
      ∃ s', back.foldlM step s = .ok s' ∧ P l s' := by
    intro back
    induction back with
    | nil =>
      intro front s hl hP
      rw [append_nil] at hl
      exact ⟨s, rfl, hl ▸ hP⟩
    | cons a back ih =>
      intro front s hl hP
      obtain ⟨s₁, hs₁, hP₁⟩ := hstep front a back s hl hP
      obtain ⟨s', hs', hP'⟩ := ih (front ++ [a]) s₁ (by simpa using hl) hP₁
      refine ⟨s', ?_, hP'⟩
      rw [foldlM_cons, hs₁]
      exact hs'
  exact hrun l [] s rfl h0

end ContextDesk.Lib
