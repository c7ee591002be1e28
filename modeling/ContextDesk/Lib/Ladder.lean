import Mathlib.Data.List.Basic

/-!
# Ladders

Every item has a ladder of values and takes the first one that is not occupied, which then is.
Items whose ladders share no value do not get in each other's way: whatever was taken before, an
item finds its ladder as it was at the start (`Agrees.step`).
-/

namespace ContextDesk.Lib.Ladder

variable {ι β : Type} (rung : ι → Nat → β) (limit : Nat)

/-- The first rung that is not occupied. -/
def firstFree [DecidableEq β] (occupied : List β) (i : ι) : Option Nat :=
  (List.range limit).find? fun c => rung i c ∉ occupied

/-- No two rungs of the items are one value. -/
def Apart (items : List ι) : Prop :=
  ∀ i ∈ items, ∀ j ∈ items, ∀ c < limit, ∀ d < limit, rung i c = rung j d → i = j ∧ c = d

/-- Two sets of occupied values tell the same about the ladders of the items. -/
def Agrees (items : List ι) (occupied start : List β) : Prop :=
  ∀ i ∈ items, ∀ c < limit, rung i c ∈ occupied ↔ rung i c ∈ start

variable {rung limit} {occupied start : List β} {i : ι} {items : List ι} {c : Nat}

section

variable [DecidableEq β]

theorem firstFree_eq_some : firstFree rung limit occupied i = some c ↔
    c < limit ∧ rung i c ∉ occupied ∧ ∀ d < c, rung i d ∈ occupied := by
  simp only [firstFree, List.find?_range_eq_some, decide_eq_true_eq, List.mem_range,
    Bool.not_eq_true', decide_eq_false_iff_not, not_not]
  exact and_left_comm

theorem firstFree_isSome :
    (firstFree rung limit occupied i).isSome ↔ ∃ c < limit, rung i c ∉ occupied := by
  simp [firstFree]

theorem firstFree_congr (h : ∀ c < limit, rung i c ∈ occupied ↔ rung i c ∈ start) :
    firstFree rung limit occupied i = firstFree rung limit start i := by
  refine Option.ext fun c => ?_
  rw [firstFree_eq_some, firstFree_eq_some]
  refine and_congr_right fun hc => and_congr (not_congr (h c hc)) ?_
  exact forall₂_congr fun d hd => h d (Nat.lt_trans hd hc)

theorem Agrees.head (h : Agrees rung limit (i :: items) occupied start) :
    firstFree rung limit occupied i = firstFree rung limit start i :=
  firstFree_congr (h i List.mem_cons_self)

end

/-- A rung of one item is on the ladder of no other. -/
theorem Agrees.step (h : Agrees rung limit (i :: items) occupied start)
    (hapart : Apart rung limit (i :: items)) (hi : i ∉ items) (hc : c < limit) :
    Agrees rung limit items (rung i c :: occupied) start := by
  intro j hj d hd
  have hj' : j ∈ i :: items := List.mem_cons_of_mem _ hj
  rw [List.mem_cons, h j hj' d hd]
  refine or_iff_right fun heq => hi ?_
  exact (hapart j hj' i List.mem_cons_self d hd c hc heq).1 ▸ hj

theorem Agrees.tail (h : Agrees rung limit (i :: items) occupied start) :
    Agrees rung limit items occupied start := fun j hj => h j (List.mem_cons_of_mem _ hj)

theorem Apart.tail (h : Apart rung limit (i :: items)) : Apart rung limit items :=
  fun j hj k hk => h j (List.mem_cons_of_mem _ hj) k (List.mem_cons_of_mem _ hk)

end ContextDesk.Lib.Ladder
