import Mathlib.Data.List.Basic
import Mathlib.Data.List.Perm.Basic

/-!
# Open items under keys

A table that holds at most one item for each key, as the list of its entries in the order of the
keys. `get`, `remove`, `put` and `alter` are its operations; each commutes with a change of the
items (`map_items` and its companions). With unique keys the entries are those of the other keys
and the one that `get` finds (`perm_of_get`).
-/

namespace ContextDesk.Lib.Slots

open List

variable {κ α β : Type} [DecidableEq κ]

def get (k : κ) (table : List (κ × α)) : Option α :=
  (table.find? fun entry => entry.1 = k).map Prod.snd

def remove (k : κ) (table : List (κ × α)) : List (κ × α) := table.filter fun entry => entry.1 ≠ k

def put (before : κ → κ → Bool) (k : κ) (a : α) (table : List (κ × α)) : List (κ × α) :=
  (remove k table).takeWhile (fun entry => before entry.1 k) ++
    (k, a) :: (remove k table).dropWhile fun entry => before entry.1 k

def alter (k : κ) (f : α → α) (table : List (κ × α)) : List (κ × α) :=
  table.map fun entry => if entry.1 = k then (entry.1, f entry.2) else entry

/-! ## Changing the items -/

def mapItems (f : α → β) (table : List (κ × α)) : List (κ × β) :=
  table.map fun entry => (entry.1, f entry.2)

theorem get_mapItems (f : α → β) (k : κ) (table : List (κ × α)) :
    get k (mapItems f table) = (get k table).map f := by
  unfold get mapItems
  rw [find?_map]
  simp only [Option.map_map, Function.comp_def]

theorem remove_mapItems (f : α → β) (k : κ) (table : List (κ × α)) :
    remove k (mapItems f table) = mapItems f (remove k table) := by
  unfold remove mapItems
  rw [filter_map]
  rfl

theorem put_mapItems (f : α → β) (before : κ → κ → Bool) (k : κ) (a : α) (table : List (κ × α)) :
    put before k (f a) (mapItems f table) = mapItems f (put before k a table) := by
  unfold put
  rw [remove_mapItems]
  unfold mapItems
  rw [takeWhile_map, dropWhile_map, map_append, map_cons]
  rfl

theorem alter_mapItems {f : α → β} {g : α → α} {h : β → β} (hfg : ∀ a, f (g a) = h (f a)) (k : κ)
    (table : List (κ × α)) : alter k h (mapItems f table) = mapItems f (alter k g table) := by
  unfold alter mapItems
  rw [map_map, map_map]
  refine map_congr_left fun entry _ => ?_
  simp only [Function.comp_apply]
  split
  · rw [hfg]
  · rfl

theorem mem_alter {k : κ} {f : α → α} {table : List (κ × α)} {a : α}
    (ha : a ∈ (alter k f table).map Prod.snd) :
    a ∈ table.map Prod.snd ∨ ∃ b ∈ table.map Prod.snd, a = f b := by
  obtain ⟨entry, hentry, rfl⟩ := mem_map.mp ha
  obtain ⟨old, hold, rfl⟩ := mem_map.mp hentry
  have hmem : old.2 ∈ table.map Prod.snd := mem_map.mpr ⟨old, hold, rfl⟩
  split
  · exact .inr ⟨old.2, hmem, rfl⟩
  · exact .inl hmem

/-! ## Unique keys -/

def Unique (table : List (κ × α)) : Prop := (table.map Prod.fst).Nodup

omit [DecidableEq κ] in
theorem Unique.filter {table : List (κ × α)} (h : Unique table) (p : κ × α → Bool) :
    Unique (table.filter p) :=
  h.sublist (filter_sublist.map Prod.fst)

theorem put_perm (before : κ → κ → Bool) (k : κ) (a : α) (table : List (κ × α)) :
    (put before k a table).Perm ((k, a) :: remove k table) := by
  unfold put
  refine perm_middle.trans ?_
  rw [takeWhile_append_dropWhile]

theorem Unique.put {table : List (κ × α)} (h : Unique table) (before : κ → κ → Bool) (k : κ)
    (a : α) : Unique (put before k a table) := by
  unfold Unique
  rw [((put_perm before k a table).map Prod.fst).nodup_iff, map_cons, nodup_cons]
  refine ⟨fun hmem => ?_, h.filter _⟩
  obtain ⟨entry, hentry, hk⟩ := mem_map.mp hmem
  simpa [hk] using (mem_filter.mp hentry).2

theorem Unique.alter {table : List (κ × α)} (h : Unique table) (k : κ) (f : α → α) :
    Unique (alter k f table) := by
  unfold Unique Slots.alter
  rw [map_map]
  have hkeys : (Prod.fst ∘ fun entry : κ × α => if entry.1 = k then (entry.1, f entry.2) else entry) =
      Prod.fst := by
    funext entry
    simp only [Function.comp_apply]
    split <;> rfl
  rw [hkeys]
  exact h

/-- An altered table is the altered item and the entries of the other keys. -/
theorem alter_perm {k : κ} {a : α} {table : List (κ × α)} (hunique : Unique table)
    (h : get k table = some a) (f : α → α) :
    (alter k f table).Perm ((k, f a) :: remove k table) := by
  induction table with
  | nil => cases h
  | cons entry table ih =>
    obtain ⟨hnot, htail⟩ := nodup_cons.mp hunique
    by_cases hk : entry.1 = k
    · have ha : entry.2 = a := by
        unfold get at h
        rw [find?_cons_of_pos (by simpa using hk)] at h
        exact Option.some.inj h
      have hrest : ∀ other ∈ table, other.1 ≠ k := fun other hother he =>
        hnot (mem_map.mpr ⟨other, hother, he.trans hk.symm⟩)
      have halter : Slots.alter k f table = table := by
        unfold Slots.alter
        refine (map_congr_left fun other hother => ?_).trans (map_id table)
        exact if_neg (hrest other hother)
      have hremove : remove k table = table :=
        filter_eq_self.mpr fun other hother => by simpa using hrest other hother
      have hhead : remove k (entry :: table) = remove k table := by simp [remove, hk]
      rw [hhead, hremove]
      show ((if entry.1 = k then (entry.1, f entry.2) else entry) ::
        Slots.alter k f table).Perm _
      rw [halter, if_pos hk, hk, ha]
    · have hget : get k table = some a := by
        unfold get at h ⊢
        rwa [find?_cons_of_neg (by simpa using hk)] at h
      have hhead : remove k (entry :: table) = entry :: remove k table := by simp [remove, hk]
      rw [hhead]
      show ((if entry.1 = k then (entry.1, f entry.2) else entry) ::
        Slots.alter k f table).Perm _
      rw [if_neg hk]
      exact ((ih htail hget).cons entry).trans (List.Perm.swap _ _ _)

theorem alter_self (k : κ) (table : List (κ × α)) : alter k (fun a => a) table = table := by
  unfold alter
  simp

/-- A table is the item under a key and the entries of the other keys. -/
theorem perm_of_get {k : κ} {a : α} {table : List (κ × α)} (hunique : Unique table)
    (h : get k table = some a) : table.Perm ((k, a) :: remove k table) := by
  have hperm := alter_perm hunique h fun b => b
  rwa [alter_self] at hperm

end ContextDesk.Lib.Slots
