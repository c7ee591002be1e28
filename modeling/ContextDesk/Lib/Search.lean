import Mathlib

/-!
# Sorted lists without repetitions

`sortDedup` sorts a list and drops repeated neighbours; the result is strictly increasing and has
the same members. `binarySearch` halves an interval around the searched value, as the standard
library of the source does, and on a strictly increasing list finds exactly its members.
-/

namespace ContextDesk.Lib

namespace WordOrder

/-- Machine words are ordered as numbers. -/
scoped instance wordLinearOrder : LinearOrder UInt64 where
  le_refl := UInt64.le_refl
  le_trans _ _ _ := UInt64.le_trans
  le_antisymm _ _ := UInt64.le_antisymm
  le_total := UInt64.le_total
  lt_iff_le_not_ge a b := by
    rw [UInt64.lt_iff_toNat_lt, UInt64.le_iff_toNat_le, UInt64.le_iff_toNat_le]
    omega
  toDecidableLE := inferInstance
  toDecidableEq := inferInstance
  toDecidableLT := inferInstance

end WordOrder

variable {α : Type} [LinearOrder α]

/-! ## Repeated neighbours -/

/-- `Vec::dedup`. -/
def dedupAdjacent : List α → List α
  | [] => []
  | a :: l =>
    match dedupAdjacent l with
    | [] => [a]
    | b :: rest => if a = b then b :: rest else a :: b :: rest

theorem mem_dedupAdjacent {l : List α} {x : α} : x ∈ dedupAdjacent l ↔ x ∈ l := by
  induction l with
  | nil => rfl
  | cons a l ih =>
    rw [dedupAdjacent, List.mem_cons, ← ih]
    split
    · rename_i hl
      simp [hl]
    · rename_i b rest hl
      split
      · rename_i hab
        simp [hl, hab]
      · rw [hl, List.mem_cons]

theorem dedupAdjacent_increasing {l : List α} (h : l.Pairwise (· ≤ ·)) :
    (dedupAdjacent l).Pairwise (· < ·) := by
  induction l with
  | nil => exact .nil
  | cons a l ih =>
    obtain ⟨hle, hl⟩ := List.pairwise_cons.mp h
    have htail := ih hl
    rw [dedupAdjacent]
    split
    · exact List.pairwise_singleton _ _
    · rename_i b rest heq
      rw [heq] at htail
      split
      · exact htail
      · rename_i hab
        obtain ⟨hhead, -⟩ := List.pairwise_cons.mp htail
        have hb : b ∈ l := mem_dedupAdjacent.mp (heq ▸ List.mem_cons_self)
        have hlt : a < b := lt_of_le_of_ne (hle b hb) hab
        refine List.pairwise_cons.mpr ⟨fun c hc => ?_, htail⟩
        rcases List.mem_cons.mp hc with rfl | hc
        · exact hlt
        · exact lt_trans hlt (hhead c hc)

/-- `sort` and `dedup`. -/
def sortDedup (l : List α) : List α := dedupAdjacent (l.insertionSort (· ≤ ·))

theorem mem_sortDedup {l : List α} {x : α} : x ∈ sortDedup l ↔ x ∈ l := by
  rw [sortDedup, mem_dedupAdjacent, List.mem_insertionSort]

theorem sortDedup_increasing (l : List α) : (sortDedup l).Pairwise (· < ·) :=
  dedupAdjacent_increasing (List.pairwise_insertionSort (· ≤ ·) l)

/-! ## Binary search -/

/-- The index at which the interval of `size` elements from `base` on shrinks to one. -/
def bisect (l : List α) (x : α) : Nat → Nat → Nat → Nat
  | 0, base, _ => base
  | fuel + 1, base, size =>
    if size ≤ 1 then base
    else
      let half := size / 2
      let base' := if l[base + half]?.any (x < ·) then base else base + half
      bisect l x fuel base' (size - half)

/-- `slice::binary_search(..).is_ok()`. -/
def binarySearch (l : List α) (x : α) : Bool := l[bisect l x l.length 0 l.length]? == some x

theorem lt_of_index {l : List α} (h : l.Pairwise (· < ·)) {i j : Nat} {x y : α}
    (hi : l[i]? = some x) (hj : l[j]? = some y) (hij : i < j) : x < y := by
  obtain ⟨hi', rfl⟩ := List.getElem?_eq_some_iff.mp hi
  obtain ⟨hj', rfl⟩ := List.getElem?_eq_some_iff.mp hj
  exact List.pairwise_iff_getElem.mp h i j hi' hj' hij

/-- The interval always holds the index of the searched value. -/
theorem bisect_eq {l : List α} (h : l.Pairwise (· < ·)) {x : α} {i : Nat} (hi : l[i]? = some x)
    {fuel base size : Nat} (hbase : base ≤ i) (hsize : i < base + size)
    (hlen : base + size ≤ l.length) (hfuel : size ≤ fuel + 1) :
    bisect l x fuel base size = i := by
  induction fuel generalizing base size with
  | zero =>
    unfold bisect
    omega
  | succ fuel ih =>
    unfold bisect
    split
    · omega
    · rename_i hlarge
      have hmid : base + size / 2 < l.length := by omega
      obtain ⟨y, hy⟩ : ∃ y, l[base + size / 2]? = some y := ⟨_, List.getElem?_eq_getElem hmid⟩
      simp only [hy, Option.any_some, decide_eq_true_eq]
      by_cases hlt : x < y
      · -- the value lies before the middle
        have hbefore : i < base + size / 2 := by
          by_contra hge
          rcases Nat.lt_or_eq_of_le (Nat.le_of_not_lt hge) with hgt | heq
          · exact lt_asymm hlt (lt_of_index h hy hi hgt)
          · rw [heq, hi] at hy
            exact absurd (Option.some.inj hy ▸ hlt) (lt_irrefl _)
        rw [if_pos hlt]
        exact ih hbase (by omega) (by omega) (by omega)
      · have hafter : base + size / 2 ≤ i := by
          by_contra hlt'
          exact hlt (lt_of_index h hi hy (Nat.lt_of_not_le hlt'))
        rw [if_neg hlt]
        exact ih hafter (by omega) (by omega) (by omega)

theorem binarySearch_iff {l : List α} (h : l.Pairwise (· < ·)) {x : α} :
    binarySearch l x = true ↔ x ∈ l := by
  unfold binarySearch
  rw [beq_iff_eq]
  constructor
  · exact List.mem_of_getElem?
  · intro hx
    obtain ⟨i, hi⟩ := List.mem_iff_getElem?.mp hx
    obtain ⟨hlt, -⟩ := List.getElem?_eq_some_iff.mp hi
    rw [bisect_eq h hi (Nat.zero_le _) (by omega) (by omega) (by omega)]
    exact hi

end ContextDesk.Lib
