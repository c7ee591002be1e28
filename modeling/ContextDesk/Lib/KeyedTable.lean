import Mathlib.Data.List.AList

/-!
# Tables with a primary key

A `Keyed` table holds at most one row for each key, so two rows cannot share one. `updateAll` is an
`UPDATE` that may look at the key, `updateAt` one of a single row. The lemmas read every table back
through `lookup`.
-/

namespace ContextDesk.Lib

abbrev Keyed (κ β : Type) := AList fun _ : κ => β

namespace Keyed

variable {κ β : Type}

/-- Every row replaced, the keys kept. -/
def updateAll (f : κ → β → β) (table : Keyed κ β) : Keyed κ β where
  entries := table.entries.map fun e => ⟨e.1, f e.1 e.2⟩
  nodupKeys := by
    have hkeys : (table.entries.map fun e => (⟨e.1, f e.1 e.2⟩ : Σ _ : κ, β)).keys =
        table.entries.keys := by
      simp [List.keys, Function.comp_def]
    unfold List.NodupKeys
    rw [hkeys]
    exact table.nodupKeys

/-- The rows with their keys. -/
def rows (table : Keyed κ β) : List (κ × β) := table.entries.map fun e => (e.1, e.2)

variable [DecidableEq κ]

def updateAt (k : κ) (f : β → β) (table : Keyed κ β) : Keyed κ β :=
  updateAll (fun k' b => if k' = k then f b else b) table

@[simp] theorem lookup_updateAll (f : κ → β → β) (table : Keyed κ β) (k : κ) :
    (updateAll f table).lookup k = (table.lookup k).map (f k) :=
  @List.dlookup_map₂ κ _ (fun _ => β) (fun _ => β) table.entries f k

theorem lookup_updateAt (k : κ) (f : β → β) (table : Keyed κ β) (k' : κ) :
    (updateAt k f table).lookup k' =
      if k' = k then (table.lookup k').map f else table.lookup k' := by
  unfold updateAt
  rw [lookup_updateAll]
  by_cases h : k' = k
  · simp only [h, if_true]
  · simp only [h, if_false, Option.map_id']

@[simp] theorem mem_updateAll (f : κ → β → β) (table : Keyed κ β) (k : κ) :
    k ∈ updateAll f table ↔ k ∈ table := by
  rw [← AList.lookup_isSome, ← AList.lookup_isSome, lookup_updateAll, Option.isSome_map]

@[simp] theorem mem_updateAt (k : κ) (f : β → β) (table : Keyed κ β) (k' : κ) :
    k' ∈ updateAt k f table ↔ k' ∈ table := mem_updateAll _ _ _

theorem updateAt_updateAt (k : κ) (f g : β → β) (table : Keyed κ β) :
    updateAt k g (updateAt k f table) = updateAt k (fun b => g (f b)) table := by
  apply AList.ext
  simp only [updateAt, updateAll, List.map_map]
  apply List.map_congr_left
  intro e _
  by_cases h : e.1 = k <;> simp [h]

theorem updateAt_self (k : κ) (table : Keyed κ β) : updateAt k (fun b => b) table = table := by
  apply AList.ext
  simp only [updateAt, updateAll, ite_self]
  exact List.map_id _

theorem lookup_insert (k : κ) (b : β) (table : Keyed κ β) (k' : κ) :
    (table.insert k b).lookup k' = if k' = k then some b else table.lookup k' := by
  by_cases h : k' = k
  · rw [if_pos h, h, AList.lookup_insert]
  · rw [if_neg h, AList.lookup_insert_ne h]

theorem lookup_erase (k : κ) (table : Keyed κ β) (k' : κ) :
    (table.erase k).lookup k' = if k' = k then none else table.lookup k' := by
  by_cases h : k' = k
  · rw [if_pos h, h, AList.lookup_erase]
  · rw [if_neg h, AList.lookup_erase_ne h]

theorem mem_of_lookup {table : Keyed κ β} {k : κ} {b : β} (h : table.lookup k = some b) :
    k ∈ table := by
  rw [← AList.lookup_isSome, h, Option.isSome_some]

theorem exists_of_mem {table : Keyed κ β} {k : κ} (h : k ∈ table) :
    ∃ b, table.lookup k = some b :=
  Option.isSome_iff_exists.mp (AList.lookup_isSome.mpr h)

theorem mem_rows {table : Keyed κ β} {k : κ} {b : β} :
    (k, b) ∈ rows table ↔ table.lookup k = some b := by
  rw [← Option.mem_def, AList.mem_lookup_iff]
  unfold rows
  rw [List.mem_map]
  constructor
  · rintro ⟨⟨k', b'⟩, hmem, e⟩
    cases e
    exact hmem
  · intro hmem
    exact ⟨⟨k, b⟩, hmem, rfl⟩

end Keyed

end ContextDesk.Lib
