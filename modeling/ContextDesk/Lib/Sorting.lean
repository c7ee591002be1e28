import Mathlib.Data.List.Sort
import Mathlib.Order.Basic

/-!
# Stable sorting

`mergeSort` keeps the order of elements that compare equal, so it commutes with a filter, and where
no two elements compare equal it depends on the elements alone. `TopOf` is the first of what is in
order: a scan that stops early and filters then has it exactly when it came far enough
(`top_of_scan`).
-/

open List

namespace ContextDesk.Lib

variable {α : Type} {le : α → α → Bool}

/-- A comparison that sorts. -/
structure Compares (le : α → α → Bool) : Prop where
  trans : ∀ a b c, le a b = true → le b c = true → le a c = true
  total : ∀ a b, (le a b || le b a) = true

/-- A list splits in one way where a condition stops to hold. -/
theorem split_unique {p : α → Bool} {l₁ l₂ m₁ m₂ : List α} (h : l₁ ++ l₂ = m₁ ++ m₂)
    (hl₁ : ∀ b ∈ l₁, p b = true) (hl₂ : ∀ b ∈ l₂, p b = false) (hm₁ : ∀ b ∈ m₁, p b = true)
    (hm₂ : ∀ b ∈ m₂, p b = false) : l₁ = m₁ ∧ l₂ = m₂ := by
  have hprefix : ∀ k₁ k₂ : List α, (∀ b ∈ k₁, p b = true) → (∀ b ∈ k₂, p b = false) →
      (k₁ ++ k₂).takeWhile p = k₁ := by
    intro k₁ k₂ hk₁ hk₂
    rw [takeWhile_append_of_pos hk₁]
    cases k₂ with
    | nil => simp
    | cons b k₂ =>
      rw [takeWhile_cons_of_neg, append_nil]
      rw [hk₂ b mem_cons_self]
      exact Bool.false_ne_true
  have heq : l₁ = m₁ := by
    rw [← hprefix l₁ l₂ hl₁ hl₂, h, hprefix m₁ m₂ hm₁ hm₂]
  subst heq
  exact ⟨rfl, append_cancel_left h⟩

theorem filter_mergeSort (hle : Compares le) (p : α → Bool) (l : List α) :
    (l.mergeSort le).filter p = (l.filter p).mergeSort le := by
  induction l with
  | nil => simp
  | cons a l ih =>
    obtain ⟨l₁, l₂, hsort, hrest, hbefore⟩ := mergeSort_cons hle.trans hle.total a l
    rw [hrest, filter_append] at ih
    rw [hsort, filter_append]
    by_cases ha : p a = true
    · obtain ⟨m₁, m₂, hsort', hrest', hbefore'⟩ :=
        mergeSort_cons hle.trans hle.total a (l.filter p)
      have hsorted := pairwise_mergeSort hle.trans hle.total (a :: l)
      have hsorted' := pairwise_mergeSort hle.trans hle.total (a :: l.filter p)
      rw [hsort] at hsorted
      rw [hsort'] at hsorted'
      have hafter := (pairwise_cons.mp (pairwise_append.mp hsorted).2.1).1
      have hafter' := (pairwise_cons.mp (pairwise_append.mp hsorted').2.1).1
      -- the elements before `a` are those that it does not come before
      obtain ⟨h₁, h₂⟩ := split_unique (p := fun b => !le a b) (ih.trans hrest')
        (fun b hb => hbefore b (mem_of_mem_filter hb))
        (fun b hb => by rw [hafter b (mem_of_mem_filter hb)]; rfl) hbefore'
        (fun b hb => by rw [hafter' b hb]; rfl)
      rw [filter_cons_of_pos ha, filter_cons_of_pos ha, hsort', h₁, h₂]
    · rw [filter_cons_of_neg ha, filter_cons_of_neg ha]
      exact ih

/-- Sorted lists of the same elements are the same. -/
theorem eq_of_sorted {l l' : List α} (hl : l.Pairwise fun a b => le a b = true)
    (hl' : l'.Pairwise fun a b => le a b = true) (hperm : l.Perm l')
    (hanti : ∀ a ∈ l, ∀ b ∈ l, le a b = true → le b a = true → a = b) : l = l' :=
  List.Perm.eq_of_pairwise (fun a b ha hb => hanti a ha b (hperm.mem_iff.mpr hb)) hl hl' hperm

/-! ## The first of what is in order -/

/-- The first `limit` of `all`, in an order that `before` leaves open between equals. -/
def TopOf (before : α → α → Prop) (limit : Nat) (all out : List α) : Prop :=
  ∃ sorted : List α, sorted.Perm all ∧ sorted.Pairwise before ∧ out = sorted.take limit

theorem TopOf.length {before : α → α → Prop} {limit : Nat} {all out : List α}
    (h : TopOf before limit all out) : out.length = min limit all.length := by
  obtain ⟨sorted, hperm, -, rfl⟩ := h
  rw [length_take, hperm.length_eq]

/-- What a scan of the first `bound` elements keeps is the top of all that is kept exactly when it
holds as many. -/
theorem top_of_scan {before : α → α → Prop} {scan all : List α} {keep : α → Bool}
    {bound limit : Nat} (hperm : scan.Perm all) (hsorted : scan.Pairwise before) :
    TopOf before limit (all.filter keep) (((scan.take bound).filter keep).take limit) ↔
      min limit (all.filter keep).length ≤ ((scan.take bound).filter keep).length := by
  constructor
  · intro h
    have hlength := h.length
    rw [length_take] at hlength
    omega
  · intro h
    refine ⟨scan.filter keep, hperm.filter keep, hsorted.filter keep, ?_⟩
    have hsplit : scan.filter keep =
        (scan.take bound).filter keep ++ (scan.drop bound).filter keep := by
      rw [← filter_append, take_append_drop]
    have htotal := congrArg List.length hsplit
    rw [(hperm.filter keep).length_eq, length_append] at htotal
    rw [hsplit, take_append]
    by_cases hlimit : limit ≤ ((scan.take bound).filter keep).length
    · rw [show limit - ((scan.take bound).filter keep).length = 0 by omega, take_zero,
        append_nil]
    · have hrest : (scan.drop bound).filter keep = [] := by
        rw [← length_eq_zero_iff]
        omega
      rw [hrest, take_nil, append_nil]

end ContextDesk.Lib

/-!
## Sorting by a key

`sort_by_key` is stable: what is under one key keeps its order. The sorted list is thus determined
by the lists under each key, and two lists sort alike exactly when these are the same
(`sortByKey_eq_iff`).
-/

namespace ContextDesk.Lib

variable {α β κ : Type} [LinearOrder κ]

def sortByKey (key : α → κ) (l : List α) : List α := l.mergeSort fun a b => key a ≤ key b

/-- The elements under a key, in their order. -/
def underKey (key : α → κ) (k : κ) (l : List α) : List α := l.filter fun a => key a = k

@[simp] theorem underKey_cons (key : α → κ) (k : κ) (a : α) (l : List α) :
    underKey key k (a :: l) = if key a = k then a :: underKey key k l else underKey key k l := by
  unfold underKey
  rw [filter_cons]
  simp only [decide_eq_true_eq]

theorem underKey_append (key : α → κ) (k : κ) (l l' : List α) :
    underKey key k (l ++ l') = underKey key k l ++ underKey key k l' := filter_append l l'

variable {l l' : List α}

/-- What passes a test is in one order only where it is all the same. -/
theorem filter_eq_of_perm {p : α → Bool} (hperm : l.Perm l')
    (hsame : ∀ a ∈ l, ∀ b ∈ l, p a = true → p b = true → a = b) : l.filter p = l'.filter p := by
  refine @eq_of_sorted _ (fun _ _ => true) _ _ ?_ ?_ (hperm.filter p) ?_
  · exact pairwise_of_forall_mem_list fun _ _ _ _ => rfl
  · exact pairwise_of_forall_mem_list fun _ _ _ _ => rfl
  · intro a ha b hb _ _
    rw [mem_filter] at ha hb
    exact hsame a ha.1 b hb.1 ha.2 hb.2

theorem find?_eq_of_perm {p : α → Bool} (hperm : l.Perm l')
    (hsame : ∀ a ∈ l, ∀ b ∈ l, p a = true → p b = true → a = b) : l.find? p = l'.find? p := by
  rw [← head?_filter, ← head?_filter, filter_eq_of_perm hperm hsame]

variable {key : α → κ}

theorem mem_underKey {k : κ} {a : α} : a ∈ underKey key k l ↔ a ∈ l ∧ key a = k := by
  unfold underKey
  rw [mem_filter, decide_eq_true_eq]

theorem underKey_eq_of_perm {k : κ} (hperm : l.Perm l')
    (hsame : ∀ a ∈ l, ∀ b ∈ l, key a = k → key b = k → a = b) :
    underKey key k l = underKey key k l' :=
  filter_eq_of_perm hperm fun a ha b hb hak hbk =>
    hsame a ha b hb (of_decide_eq_true hak) (of_decide_eq_true hbk)

/-- The elements under a key are among those with what the key determines. -/
theorem underKey_filter {k : κ} {p : α → Bool} (h : ∀ a, key a = k → p a = true) (l : List α) :
    underKey key k (l.filter p) = underKey key k l := by
  unfold underKey
  rw [filter_filter]
  refine filter_congr fun a _ => ?_
  by_cases ha : key a = k
  · rw [decide_eq_true ha, h a ha]
    rfl
  · rw [decide_eq_false ha]
    rfl

theorem compares_key (key : α → κ) : Compares fun a b => decide (key a ≤ key b) := by
  refine ⟨fun a b c hab hbc => ?_, fun a b => ?_⟩
  · exact decide_eq_true (le_trans (of_decide_eq_true hab) (of_decide_eq_true hbc))
  · rw [Bool.or_eq_true, decide_eq_true_eq, decide_eq_true_eq]
    exact le_total _ _

theorem sortByKey_perm (key : α → κ) (l : List α) : (sortByKey key l).Perm l :=
  mergeSort_perm l _

theorem sortByKey_pairwise (key : α → κ) (l : List α) :
    (sortByKey key l).Pairwise fun a b => key a ≤ key b := by
  have h := pairwise_mergeSort (compares_key key).trans (compares_key key).total l
  exact h.imp fun hab => of_decide_eq_true hab

theorem sortByKey_of_pairwise (h : l.Pairwise fun a b => key a ≤ key b) : sortByKey key l = l :=
  mergeSort_of_pairwise (h.imp fun hab => decide_eq_true hab)

theorem underKey_sortByKey (key : α → κ) (k : κ) (l : List α) :
    underKey key k (sortByKey key l) = underKey key k l := by
  unfold underKey
  rw [sortByKey, filter_mergeSort (compares_key key)]
  refine mergeSort_of_pairwise (pairwise_of_forall_mem_list fun a ha b hb => ?_)
  have hka := of_decide_eq_true (mem_filter.mp ha).2
  have hkb := of_decide_eq_true (mem_filter.mp hb).2
  exact decide_eq_true (le_of_eq (hka.trans hkb.symm))

theorem exists_under_key (h : ∀ k, underKey key k l = underKey key k l') {a : α} (ha : a ∈ l) :
    a ∈ l' := by
  have hmem : a ∈ underKey key (key a) l := mem_filter.mpr ⟨ha, decide_eq_true rfl⟩
  rw [h (key a)] at hmem
  exact mem_of_mem_filter hmem

/-- A sorted list is determined by what is under each key. -/
theorem eq_of_under_keys (hl : l.Pairwise fun a b => key a ≤ key b)
    (hl' : l'.Pairwise fun a b => key a ≤ key b) (h : ∀ k, underKey key k l = underKey key k l') :
    l = l' := by
  induction l generalizing l' with
  | nil =>
    refine (eq_nil_iff_forall_not_mem.mpr fun a ha => ?_).symm
    exact not_mem_nil (exists_under_key (fun k => (h k).symm) ha)
  | cons a l ih =>
    cases l' with
    | nil => exact absurd (exists_under_key h mem_cons_self) not_mem_nil
    | cons b l' =>
      rw [pairwise_cons] at hl hl'
      have hab : key a ≤ key b := by
        rcases mem_cons.mp (exists_under_key (fun k => (h k).symm) mem_cons_self) with
          heq | hmem
        · exact le_of_eq (congrArg key heq).symm
        · exact hl.1 b hmem
      have hba : key b ≤ key a := by
        rcases mem_cons.mp (exists_under_key h mem_cons_self) with heq | hmem
        · exact le_of_eq (congrArg key heq).symm
        · exact hl'.1 a hmem
      have hkey : key a = key b := le_antisymm hab hba
      have hhead := h (key a)
      rw [underKey_cons, underKey_cons, if_pos rfl, if_pos hkey.symm, cons.injEq] at hhead
      obtain ⟨rfl, -⟩ := hhead
      refine congrArg _ (ih hl.2 hl'.2 fun k => ?_)
      have hk := h k
      rw [underKey_cons, underKey_cons] at hk
      by_cases hka : key a = k
      · rw [if_pos hka, if_pos hka, cons.injEq] at hk
        exact hk.2
      · rwa [if_neg hka, if_neg hka] at hk

theorem sortByKey_eq_iff :
    sortByKey key l = sortByKey key l' ↔ ∀ k, underKey key k l = underKey key k l' := by
  constructor
  · intro h k
    rw [← underKey_sortByKey key k l, h, underKey_sortByKey]
  · intro h
    refine eq_of_under_keys (sortByKey_pairwise key l) (sortByKey_pairwise key l') fun k => ?_
    rw [underKey_sortByKey, underKey_sortByKey, h k]

/-- What comes first in its key comes first. -/
theorem sortByKey_append (h : ∀ a ∈ l, ∀ b ∈ l', key a ≤ key b) :
    sortByKey key (l ++ l') = sortByKey key l ++ sortByKey key l' := by
  refine eq_of_under_keys (sortByKey_pairwise key _) ?_ fun k => ?_
  · refine pairwise_append.mpr ⟨sortByKey_pairwise key l, sortByKey_pairwise key l', ?_⟩
    intro a ha b hb
    exact h a ((sortByKey_perm key l).mem_iff.mp ha) b ((sortByKey_perm key l').mem_iff.mp hb)
  · rw [underKey_sortByKey]
    unfold underKey
    rw [filter_append, filter_append]
    exact congrArg₂ _ (underKey_sortByKey key k l).symm (underKey_sortByKey key k l').symm

/-- A relation between the earlier and the later survives where it holds between keys. -/
theorem pairwise_sortByKey {R : α → α → Prop} (h : l.Pairwise R)
    (hkey : ∀ a ∈ l, ∀ b ∈ l, key a < key b → R a b) : (sortByKey key l).Pairwise R := by
  rw [pairwise_iff_forall_sublist]
  intro a b hab
  have hle := pairwise_iff_forall_sublist.mp (sortByKey_pairwise key l) hab
  have hmem : ∀ c ∈ [a, b], c ∈ l := fun c hc => (sortByKey_perm key l).mem_iff.mp (hab.subset hc)
  rcases lt_or_eq_of_le hle with hlt | heq
  · exact hkey a (hmem a (by simp)) b (hmem b (by simp)) hlt
  · -- under one key the order is that of the list
    have hsub : (underKey key (key b) [a, b]).Sublist (underKey key (key b) (sortByKey key l)) :=
      hab.filter _
    rw [underKey_cons, underKey_cons, if_pos heq, if_pos rfl, underKey_sortByKey] at hsub
    exact pairwise_iff_forall_sublist.mp h (hsub.trans filter_sublist)

end ContextDesk.Lib
