import Mathlib

/-!
# Bounded caches with a recency order

A `RecencyCache` keeps its entries in a map and its keys in the order of their last use, the least
recent first. `RecencyCache.insert` evicts the least recent keys until the map is small enough.
`RecencyCache.Sound` says that the two structures hold the same keys, each once, and that the map
is bounded; every operation keeps it.
-/

namespace ContextDesk.Lib

open List

variable {κ ν : Type} [DecidableEq κ]

structure RecencyCache (κ ν : Type) where
  entries : AList fun _ : κ => ν
  order : List κ

namespace RecencyCache

def empty : RecencyCache κ ν := ⟨∅, []⟩

/-- The key becomes the most recent one. -/
def touched (key : κ) (order : List κ) : List κ := order.filter (· ≠ key) ++ [key]

def touch (key : κ) (c : RecencyCache κ ν) : RecencyCache κ ν :=
  { c with order := touched key c.order }

def remove (key : κ) (c : RecencyCache κ ν) : RecencyCache κ ν :=
  ⟨c.entries.erase key, c.order.filter (· ≠ key)⟩

/-- Drop the least recent keys while there are more than `cap` entries. -/
def evict (cap : Nat) (entries : AList fun _ : κ => ν) : List κ → RecencyCache κ ν
  | [] => ⟨entries, []⟩
  | key :: order =>
    if cap < entries.keys.length then evict cap (entries.erase key) order else ⟨entries, key :: order⟩

def insert (cap : Nat) (key : κ) (value : ν) (c : RecencyCache κ ν) : RecencyCache κ ν :=
  evict cap (c.entries.insert key value) (touched key c.order)

/-- The map and the order hold the same keys. -/
structure Aligned (entries : AList fun _ : κ => ν) (order : List κ) : Prop where
  nodup : order.Nodup
  mem : ∀ key, key ∈ order ↔ key ∈ entries

structure Sound (cap : Nat) (c : RecencyCache κ ν) : Prop where
  aligned : Aligned c.entries c.order
  bounded : c.entries.keys.length ≤ cap

variable {cap : Nat} {c : RecencyCache κ ν} {key : κ} {entries : AList fun _ : κ => ν} {order : List κ}

theorem mem_touched {k : κ} : k ∈ touched key order ↔ k = key ∨ k ∈ order := by
  unfold touched
  rw [mem_append, mem_filter, mem_singleton, decide_eq_true_eq]
  by_cases h : k = key
  · simp [h]
  · simp [h]

theorem nodup_touched (h : order.Nodup) : (touched key order).Nodup := by
  unfold touched
  refine nodup_append.mpr ⟨h.filter _, nodup_singleton _, fun a ha b hb hab => ?_⟩
  have hne := (mem_filter.mp ha).2
  rw [decide_eq_true_eq] at hne
  exact hne (hab.trans (mem_singleton.mp hb))

omit [DecidableEq κ] in
theorem Sound.empty (cap : Nat) : (empty : RecencyCache κ ν).Sound cap :=
  ⟨⟨nodup_nil, fun _ => Iff.rfl⟩, Nat.zero_le _⟩

theorem Sound.touch (h : c.Sound cap) (hkey : key ∈ c.entries) : (c.touch key).Sound cap := by
  refine ⟨⟨nodup_touched h.aligned.nodup, fun k => ?_⟩, h.bounded⟩
  show k ∈ touched key c.order ↔ k ∈ c.entries
  rw [mem_touched, h.aligned.mem]
  constructor
  · rintro (rfl | hk)
    · exact hkey
    · exact hk
  · exact .inr

theorem Aligned.erase (h : Aligned entries order) (key : κ) :
    Aligned (entries.erase key) (order.filter (· ≠ key)) := by
  refine ⟨h.nodup.filter _, fun k => ?_⟩
  rw [mem_filter, AList.mem_erase, h.mem, decide_eq_true_eq, and_comm]

theorem Sound.remove (h : c.Sound cap) (key : κ) : (c.remove key).Sound cap := by
  refine ⟨h.aligned.erase key, ?_⟩
  show (c.entries.erase key).keys.length ≤ cap
  rw [AList.keys_erase]
  exact length_erase_le.trans h.bounded

theorem evict_sound (h : Aligned entries order) : (evict cap entries order).Sound cap := by
  induction order generalizing entries with
  | nil =>
    refine ⟨h, ?_⟩
    have hempty : entries.keys = [] := by
      rw [eq_nil_iff_forall_not_mem]
      intro k hk
      exact absurd ((h.mem k).mpr hk) not_mem_nil
    show entries.keys.length ≤ cap
    rw [hempty]
    exact Nat.zero_le _
  | cons key order ih =>
    unfold evict
    split
    · have hrest : order = (key :: order).filter (· ≠ key) := by
        rw [filter_cons_of_neg (by simp), filter_eq_self.mpr]
        intro k hk
        rw [decide_eq_true_eq]
        rintro rfl
        exact (nodup_cons.mp h.nodup).1 hk
      refine ih ?_
      have := h.erase key
      rwa [← hrest] at this
    · rename_i hle
      exact ⟨h, not_lt.mp hle⟩

theorem Sound.insert (h : c.Sound cap) (key : κ) (value : ν) : (c.insert cap key value).Sound cap := by
  refine evict_sound ⟨nodup_touched h.aligned.nodup, fun k => ?_⟩
  rw [mem_touched, AList.mem_insert, h.aligned.mem]

/-! ## Entries -/

theorem lookup_remove {k : κ} {v : ν} (h : (c.remove key).entries.lookup k = some v) :
    c.entries.lookup k = some v := by
  unfold remove at h
  by_cases heq : k = key
  · rw [heq, AList.lookup_erase] at h
    cases h
  · rwa [AList.lookup_erase_ne heq] at h

theorem lookup_evict {k : κ} {v : ν} (h : (evict cap entries order).entries.lookup k = some v) :
    entries.lookup k = some v := by
  induction order generalizing entries with
  | nil => exact h
  | cons key order ih =>
    unfold evict at h
    split at h
    · have hk := ih h
      by_cases heq : k = key
      · rw [heq, AList.lookup_erase] at hk
        cases hk
      · rwa [AList.lookup_erase_ne heq] at hk
    · exact h

/-- After an insertion every entry is the inserted one or an old one. -/
theorem lookup_insert {k : κ} {value v : ν}
    (h : (c.insert cap key value).entries.lookup k = some v) :
    k = key ∧ v = value ∨ c.entries.lookup k = some v := by
  have hk := lookup_evict h
  by_cases heq : k = key
  · rw [heq, AList.lookup_insert] at hk
    exact .inl ⟨heq, (Option.some.inj hk).symm⟩
  · rw [AList.lookup_insert_ne heq] at hk
    exact .inr hk

end RecencyCache

end ContextDesk.Lib
