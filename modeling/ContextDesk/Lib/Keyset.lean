import Mathlib

/-!
# Keyset pages

Rows in strictly ascending order of a key are cut into pages by the key of a row at a boundary.
`filter_after` and `filter_before` say that a comparison with that key selects exactly the rows
on one side of it, `sort_select` that selecting and sorting commute, and `take_lookahead`,
`reverse_lookahead` that a look-ahead row tells whether the side is longer than the page.
-/

namespace ContextDesk.Lib.Keyset

open List

variable {α κ : Type} [LinearOrder κ] {key : α → κ}

/-- Every key is smaller than the keys after it. -/
def Ascending (key : α → κ) (l : List α) : Prop := l.Pairwise fun a b => key a < key b

theorem Ascending.nodup {l : List α} (h : Ascending key l) : l.Nodup :=
  h.imp fun {a b} hlt heq => by
    subst heq
    exact lt_irrefl _ hlt

/-- Ascending rows are determined by their members. -/
theorem Ascending.eq_of_mem {l l' : List α} (h : Ascending key l) (h' : Ascending key l')
    (hmem : ∀ a, a ∈ l ↔ a ∈ l') : l = l' := by
  have hperm : l.Perm l' := (perm_ext_iff_of_nodup h.nodup h'.nodup).mpr hmem
  exact hperm.eq_of_pairwise
    (fun a b _ _ hab hba => absurd (lt_trans hab hba) (lt_irrefl _)) h h'

/-- Sorting rows with different keys. -/
theorem ascending_insertionSort {l : List α} {le : α → α → Prop} [DecidableRel le]
    (hle : ∀ a b, le a b ↔ key a ≤ key b) (hd : (l.map key).Nodup) :
    Ascending key (l.insertionSort le) := by
  have htotal : Std.Total le := ⟨fun a b => by rw [hle, hle]; exact le_total _ _⟩
  have htrans : IsTrans α le := ⟨fun a b c => by rw [hle, hle, hle]; exact le_trans⟩
  have hsorted : (l.insertionSort le).Pairwise le := pairwise_insertionSort le l
  have hkeys : (l.insertionSort le).Pairwise fun a b => key a ≠ key b := by
    have hperm := (perm_insertionSort le l).map key
    exact pairwise_map.mp (hperm.nodup_iff.mpr hd)
  refine (hsorted.and hkeys).imp ?_
  rintro a b ⟨hab, hne⟩
  exact lt_of_le_of_ne ((hle a b).mp hab) hne

/-- Sorting the other way round. -/
theorem reverse_insertionSort {l : List α} {le ge : α → α → Prop} [DecidableRel le]
    [DecidableRel ge] (hle : ∀ a b, le a b ↔ key a ≤ key b) (hge : ∀ a b, ge a b ↔ le b a)
    (hd : (l.map key).Nodup) : l.insertionSort ge = (l.insertionSort le).reverse := by
  have hasc := ascending_insertionSort hle hd
  have hdesc : Ascending (fun a => OrderDual.toDual (key a)) (l.insertionSort ge) :=
    ascending_insertionSort (fun a b => by rw [hge, hle]; rfl) hd
  refine hdesc.eq_of_mem ?_ fun a => ?_
  · exact pairwise_reverse.mpr hasc
  · rw [mem_insertionSort, mem_reverse, mem_insertionSort]

/-- The keys above the key of a row are those of the rows after it. -/
theorem Ascending.filter_after {before after : List α} {a : α}
    (h : Ascending key (before ++ [a] ++ after)) :
    (before ++ [a] ++ after).filter (fun b => key a < key b) = after := by
  obtain ⟨hleft, -, hcross⟩ := pairwise_append.mp h
  obtain ⟨-, -, hlast⟩ := pairwise_append.mp hleft
  rw [filter_append, filter_eq_nil_iff.mpr, filter_eq_self.mpr, nil_append]
  · intro b hb
    exact decide_eq_true (hcross a (mem_append_right _ (mem_singleton_self a)) b hb)
  · intro b hb
    rw [decide_eq_true_eq, not_lt]
    rcases mem_append.mp hb with hb | hb
    · exact le_of_lt (hlast b hb a (mem_singleton_self a))
    · rw [mem_singleton.mp hb]

/-- The keys below the key of a row are those of the rows before it. -/
theorem Ascending.filter_before {before after : List α} {a : α}
    (h : Ascending key (before ++ a :: after)) :
    (before ++ a :: after).filter (fun b => key b < key a) = before := by
  obtain ⟨-, hright, hcross⟩ := pairwise_append.mp h
  obtain ⟨hhead, -⟩ := pairwise_cons.mp hright
  rw [filter_append, filter_eq_self.mpr, filter_eq_nil_iff.mpr, append_nil]
  · intro b hb
    rw [decide_eq_true_eq, not_lt]
    rcases mem_cons.mp hb with rfl | hb
    · exact le_refl _
    · exact le_of_lt (hhead b hb)
  · intro b hb
    exact decide_eq_true (hcross b hb a mem_cons_self)

/-- Rows that come before all others. -/
theorem Ascending.partition {p : α → Bool} {l : List α} (h : Ascending key l)
    (hp : ∀ a ∈ l, ∀ b ∈ l, key a < key b → p b = true → p a = true) :
    l = l.filter p ++ l.filter (fun a => !p a) := by
  induction l with
  | nil => rfl
  | cons a l ih =>
    obtain ⟨hhead, htail⟩ := pairwise_cons.mp h
    have ih := ih htail fun b hb c hc =>
      hp b (mem_cons_of_mem _ hb) c (mem_cons_of_mem _ hc)
    by_cases ha : p a = true
    · rw [filter_cons_of_pos ha, filter_cons_of_neg (by simp [ha]), cons_append,
        ← ih]
    · have hnone : ∀ b ∈ l, ¬ p b = true := fun b hb hpb =>
        ha (hp a mem_cons_self b (mem_cons_of_mem _ hb) (hhead b hb) hpb)
      rw [filter_cons_of_neg ha, filter_cons_of_pos (by simp [ha]),
        filter_eq_nil_iff.mpr hnone, nil_append, filter_eq_self.mpr]
      intro b hb
      simp [hnone b hb]

/-- Selecting rows and sorting them is selecting from the sorted rows. -/
theorem sort_select {rows : List α} {p : α → Bool} {le : α → α → Prop} [DecidableRel le]
    (hle : ∀ a b, le a b ↔ key a ≤ key b) (hd : (rows.map key).Nodup) :
    (rows.filter p).insertionSort le = (rows.insertionSort le).filter p := by
  have hsub : ((rows.filter p).map key).Nodup := hd.sublist (filter_sublist.map key)
  refine (ascending_insertionSort hle hsub).eq_of_mem
    ((ascending_insertionSort hle hd).filter _) fun a => ?_
  simp only [mem_insertionSort, mem_filter]

/-! ## Look-ahead rows -/

variable {n : Nat}

theorem lookahead_more {rest : List α} : n < (rest.take (n + 1)).length ↔ n < rest.length := by
  rw [length_take]
  omega

/-- A page without its look-ahead row. -/
theorem take_lookahead {rest : List α} :
    (if n < (rest.take (n + 1)).length then (rest.take (n + 1)).take n else rest.take (n + 1)) =
      rest.take n := by
  rw [take_take, Nat.min_eq_left (Nat.le_succ n)]
  split
  · rfl
  · rename_i h
    rw [lookahead_more, not_lt] at h
    rw [take_of_length_le h, take_of_length_le (by omega)]

/-- A page fetched from its end, turned round, without its look-ahead row. -/
theorem reverse_lookahead {rest : List α} :
    (if n < (rest.reverse.take (n + 1)).length then (rest.reverse.take (n + 1)).reverse.tail
      else (rest.reverse.take (n + 1)).reverse) = rest.drop (rest.length - n) := by
  have hmore : n < (rest.reverse.take (n + 1)).length ↔ n < rest.length := by
    rw [lookahead_more, length_reverse]
  rw [reverse_take, reverse_reverse, length_reverse, tail_drop]
  split
  · rename_i h
    have := hmore.mp h
    congr 1
    omega
  · rename_i h
    have := mt hmore.mpr h
    congr 1
    omega

end ContextDesk.Lib.Keyset
