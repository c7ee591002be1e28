import Mathlib

/-!
# Timelines

A timeline lists the states that were current, in order. `Current l i j a` says that `a` was
current at some time from `i` to `j`. A relation that holds between every state and every later
one (`List.Pairwise`) orders times (`rel_of_le`); a version that never decreases and is the same
at two times was the same at every time between them (`version_between`).
-/

namespace ContextDesk.Lib

variable {α : Type}

/-- The state `a` was current at some time from `i` to `j`. -/
def Current (l : List α) (i j : Nat) (a : α) : Prop := ∃ k, i ≤ k ∧ k ≤ j ∧ l[k]? = some a

variable {i j : Nat}

variable {l : List α}

theorem Current.at {k : Nat} {a : α} (h : l[k]? = some a) (hi : i ≤ k) (hj : k ≤ j) :
    Current l i j a :=
  ⟨k, hi, hj, h⟩

theorem Current.widen {i' j' : Nat} {a : α} (h : Current l i j a) (hi : i' ≤ i) (hj : j ≤ j') :
    Current l i' j' a := by
  obtain ⟨k, hik, hkj, hk⟩ := h
  exact ⟨k, by omega, by omega, hk⟩

theorem Current.mem {a : α} (h : Current l i j a) : a ∈ l := by
  obtain ⟨k, -, -, hk⟩ := h
  exact List.mem_of_getElem? hk

theorem getElem?_extend {k : Nat} {a : α} (h : l[k]? = some a) (b : α) :
    (l ++ [b])[k]? = some a := by
  obtain ⟨hk, -⟩ := List.getElem?_eq_some_iff.mp h
  rw [List.getElem?_append_left hk, h]

/-- The past does not change. -/
theorem Current.extend {a : α} (h : Current l i j a) (b : α) : Current (l ++ [b]) i j a := by
  obtain ⟨k, hik, hkj, hk⟩ := h
  exact ⟨k, hik, hkj, getElem?_extend hk b⟩

theorem Current.of_prefix {l' : List α} {a : α} (h : Current l i j a) (hl : l <+: l') :
    Current l' i j a := by
  obtain ⟨rest, rfl⟩ := hl
  obtain ⟨k, hik, hkj, hk⟩ := h
  obtain ⟨hlt, -⟩ := List.getElem?_eq_some_iff.mp hk
  exact ⟨k, hik, hkj, by rw [List.getElem?_append_left hlt, hk]⟩

theorem rel_of_le {R : α → α → Prop} (hrefl : ∀ a, R a a) (h : l.Pairwise R) {a b : α}
    (hij : i ≤ j) (hi : l[i]? = some a) (hj : l[j]? = some b) : R a b := by
  obtain ⟨hi', rfl⟩ := List.getElem?_eq_some_iff.mp hi
  obtain ⟨hj', rfl⟩ := List.getElem?_eq_some_iff.mp hj
  rcases Nat.lt_or_eq_of_le hij with hlt | rfl
  · exact List.pairwise_iff_getElem.mp h i j hi' hj' hlt
  · exact hrefl _

/-- A version that is the same at both ends is the same in between. -/
theorem version_between {version : α → Nat} (h : l.Pairwise fun a b => version a ≤ version b)
    {a b c : α} (hi : l[i]? = some a) (hj : l[j]? = some c) (hends : version a = version c)
    (hb : Current l i j b) : version b = version a := by
  obtain ⟨k, hik, hkj, hk⟩ := hb
  have hle := rel_of_le (R := fun a b => version a ≤ version b) (fun _ => Nat.le_refl _) h hik hi hk
  have hge := rel_of_le (R := fun a b => version a ≤ version b) (fun _ => Nat.le_refl _) h hkj hk hj
  omega

end ContextDesk.Lib
