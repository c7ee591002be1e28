import Mathlib.Data.List.Pairwise
import Mathlib.Data.List.Perm.Basic
import Mathlib.Order.Lattice

/-!
# Ranks

`rank` counts the elements with a smaller key. In a list whose keys ascend it is the place of an
element, so the first `n` elements are those of a rank below `n` (`filter_rank`); it depends on the
elements alone. `insertAll` is a map with entries put into it one after another: of entries under
different keys, it has all.
-/

namespace ContextDesk.Lib

open List

section

variable {α κ : Type} [LinearOrder κ] {key : α → κ} {l l' : List α} {a b : α} {n : Nat}

def rank (key : α → κ) (l : List α) (a : α) : Nat := l.countP fun b => key b < key a

theorem rank_perm (h : l.Perm l') (a : α) : rank key l a = rank key l' a := h.countP_eq _

theorem rank_mono (h : key a ≤ key b) : rank key l a ≤ rank key l b := by
  refine countP_mono_left fun c _ hc => ?_
  rw [decide_eq_true_eq] at hc ⊢
  exact lt_of_lt_of_le hc h

theorem mem_take_iff_rank (hsorted : l.Pairwise fun a b => key a < key b) (ha : a ∈ l) :
    a ∈ l.take n ↔ rank key l a < n := by
  unfold rank
  induction l generalizing n with
  | nil => exact absurd ha not_mem_nil
  | cons b l ih =>
    obtain ⟨hb, htail⟩ := pairwise_cons.mp hsorted
    cases n with
    | zero => simp
    | succ n =>
      rw [take_succ_cons, mem_cons, countP_cons]
      rcases mem_cons.mp ha with rfl | ha
      · have hzero : l.countP (fun b => key b < key a) = 0 := by
          rw [countP_eq_zero]
          intro c hc
          rw [decide_eq_true_eq]
          exact not_lt_of_gt (hb c hc)
        rw [hzero]
        simp
      · have hlt := hb a ha
        have hne : a ≠ b := by
          rintro rfl
          exact absurd hlt (lt_irrefl _)
        rw [ih htail ha, if_pos (decide_eq_true hlt)]
        simp only [hne, false_or]
        omega

/-- The first elements are those of a small rank. -/
theorem filter_rank (hsorted : l.Pairwise fun a b => key a < key b) (n : Nat) :
    l.filter (fun a => rank key l a < n) = l.take n := by
  have hsplit := hsorted
  rw [← take_append_drop n l, pairwise_append] at hsplit
  have hfirst : (l.take n).filter (fun a => rank key l a < n) = l.take n := by
    rw [filter_eq_self]
    intro a ha
    exact decide_eq_true ((mem_take_iff_rank hsorted (mem_of_mem_take ha)).mp ha)
  have hlast : (l.drop n).filter (fun a => rank key l a < n) = [] := by
    rw [filter_eq_nil_iff]
    intro a ha hr
    have hmem := (mem_take_iff_rank hsorted (mem_of_mem_drop ha)).mpr (of_decide_eq_true hr)
    exact absurd (hsplit.2.2 a hmem a ha) (lt_irrefl _)
  conv_lhs => rw [← take_append_drop n l]
  rw [filter_append]
  simp only [take_append_drop]
  rw [hfirst, hlast, append_nil]

theorem countP_rank (hsorted : l.Pairwise fun a b => key a < key b) (n : Nat) :
    l.countP (fun a => rank key l a < n) = min n l.length := by
  rw [countP_eq_length_filter, filter_rank hsorted, length_take]

end

section

variable {κ β : Type} [DecidableEq κ] {m : κ → Option β} {entries : List (κ × β)} {k : κ}

/-- The map with the entries put into it, each in the place of an earlier one. -/
def insertAll (m : κ → Option β) (entries : List (κ × β)) : κ → Option β :=
  entries.foldl (fun m entry => Function.update m entry.1 (some entry.2)) m

theorem insertAll_append (m : κ → Option β) (entries entries' : List (κ × β)) :
    insertAll m (entries ++ entries') = insertAll (insertAll m entries) entries' :=
  foldl_append

theorem insertAll_of_notMem (h : k ∉ entries.map Prod.fst) : insertAll m entries k = m k := by
  induction entries generalizing m with
  | nil => rfl
  | cons entry entries ih =>
    rw [map_cons, mem_cons, not_or] at h
    show insertAll (Function.update m entry.1 (some entry.2)) entries k = m k
    rw [ih h.2, Function.update_of_ne h.1]

theorem insertAll_of_mem {b : β} (hnodup : (entries.map Prod.fst).Nodup) (h : (k, b) ∈ entries) :
    insertAll m entries k = some b := by
  induction entries generalizing m with
  | nil => exact absurd h not_mem_nil
  | cons entry entries ih =>
    rw [map_cons, nodup_cons] at hnodup
    show insertAll (Function.update m entry.1 (some entry.2)) entries k = some b
    rcases mem_cons.mp h with rfl | h
    · rw [insertAll_of_notMem hnodup.1, Function.update_self]
    · exact ih hnodup.2 h

end

end ContextDesk.Lib
