import ContextDesk.Lib.Keyset

/-!
# Sorting with ties

`sortBy` keeps elements of one key in the order in which they came. Two sorted lists of the same
elements differ in the order of the ties only, so they agree in what the ties agree on
(`SortedBy.map_eq`, `SortedBy.findSome?_eq`), and two ties at the front change places where they
stand (`sortBy_tie`).
-/

namespace ContextDesk.Lib

open List

variable {α β κ : Type} [LinearOrder κ] {key : α → κ} {l l' : List α}

def sortBy (key : α → κ) (l : List α) : List α := l.insertionSort fun a b => key a ≤ key b

def SortedBy (key : α → κ) (l : List α) : Prop := l.Pairwise fun a b => key a ≤ key b

theorem sortBy_perm (key : α → κ) (l : List α) : (sortBy key l).Perm l :=
  perm_insertionSort _ _

theorem sortBy_sorted (key : α → κ) (l : List α) : SortedBy key (sortBy key l) := by
  have htotal : Std.Total fun a b : α => key a ≤ key b := ⟨fun a b => le_total (key a) (key b)⟩
  have htrans : IsTrans α fun a b => key a ≤ key b := ⟨fun _ _ _ hab hbc => le_trans hab hbc⟩
  exact pairwise_insertionSort _ _

theorem SortedBy.filter (h : SortedBy key l) (p : α → Bool) : SortedBy key (l.filter p) :=
  h.sublist filter_sublist

theorem SortedBy.sortBy_eq (h : SortedBy key l) : sortBy key l = l :=
  List.Pairwise.insertionSort_eq h

theorem SortedBy.map_eq (h : SortedBy key l) (h' : SortedBy key l') (hp : l.Perm l') {f : α → β}
    (htie : ∀ a ∈ l, ∀ b ∈ l, key a = key b → f a = f b) : l.map f = l'.map f := by
  have hpairs : l.map (fun a => (key a, f a)) = l'.map fun a => (key a, f a) := by
    have hsorted : ∀ {m}, SortedBy key m →
        (m.map fun a => (key a, f a)).Pairwise fun x y => x.1 ≤ y.1 :=
      fun hm => pairwise_map.mpr hm
    refine (hp.map _).eq_of_pairwise ?_ (hsorted h) (hsorted h')
    rintro _ _ hx hy hxy hyx
    obtain ⟨a, ha, rfl⟩ := mem_map.mp hx
    obtain ⟨b, hb, rfl⟩ := mem_map.mp hy
    have hkey := le_antisymm hxy hyx
    exact Prod.ext hkey (htie a ha b (hp.mem_iff.mpr hb) hkey)
  have hsnd := congrArg (List.map Prod.snd) hpairs
  rwa [map_map, map_map] at hsnd

/-- The first hit has the smallest key of all hits. -/
theorem SortedBy.first_hit (h : SortedBy key l) {f : α → Option β} {b : β}
    (hb : l.findSome? f = some b) :
    ∃ a ∈ l, f a = some b ∧ (∀ c ∈ l, key c < key a → f c = none) ∧
      ∀ c ∈ l, (f c).isSome = true → key a ≤ key c := by
  obtain ⟨before, a, after, rfl, ha, hnone⟩ := findSome?_eq_some_iff.mp hb
  obtain ⟨-, hright, hcross⟩ := pairwise_append.mp h
  have hle : ∀ c ∈ a :: after, key a ≤ key c := by
    intro c hc
    rcases mem_cons.mp hc with rfl | hc
    · exact le_refl _
    · exact (pairwise_cons.mp hright).1 c hc
  refine ⟨a, by simp, ha, fun c hc hlt => ?_, fun c hc hhit => ?_⟩
  · rcases mem_append.mp hc with hc | hc
    · exact hnone c hc
    · exact absurd hlt (not_lt_of_ge (hle c hc))
  · rcases mem_append.mp hc with hc | hc
    · rw [hnone c hc] at hhit
      cases hhit
    · exact hle c hc

theorem SortedBy.findSome?_eq (h : SortedBy key l) (h' : SortedBy key l') (hp : l.Perm l')
    {f : α → Option β}
    (htie : ∀ a ∈ l, ∀ b ∈ l, key a = key b → (∀ c ∈ l, key c < key a → f c = none) →
      (f a).isSome = true → (f b).isSome = true → f a = f b) :
    l.findSome? f = l'.findSome? f := by
  cases hf : l.findSome? f with
  | none =>
    rw [findSome?_eq_none_iff] at hf
    exact (findSome?_eq_none_iff.mpr fun a ha => hf a (hp.mem_iff.mpr ha)).symm
  | some x =>
    obtain ⟨a, ha, hax, hbefore, hleast⟩ := h.first_hit hf
    cases hf' : l'.findSome? f with
    | none =>
      have hnone := findSome?_eq_none_iff.mp hf' a (hp.mem_iff.mp ha)
      rw [hax] at hnone
      cases hnone
    | some y =>
      obtain ⟨b, hb, hby, -, hleast'⟩ := h'.first_hit hf'
      have hkey : key a = key b := le_antisymm
        (hleast b (hp.mem_iff.mpr hb) (by rw [hby]; rfl))
        (hleast' a (hp.mem_iff.mp ha) (by rw [hax]; rfl))
      have hsame := htie a ha b (hp.mem_iff.mpr hb) hkey hbefore (by rw [hax]; rfl)
        (by rw [hby]; rfl)
      rw [← hax, ← hby, hsame]

theorem sortBy_tie {a b : α} (h : key a = key b) (l : List α) :
    ∃ before after, sortBy key (a :: b :: l) = before ++ a :: b :: after ∧
      sortBy key (b :: a :: l) = before ++ b :: a :: after ∧ ∀ c ∈ before, key c < key a := by
  have hinsert : ∀ x y : α, key x = key y → ∀ before after : List α,
      (∀ c ∈ before, key c < key x) →
      (before ++ y :: after).orderedInsert (fun c d => key c ≤ key d) x =
        before ++ x :: y :: after := by
    intro x y hxy before after hbefore
    induction before with
    | nil => rw [nil_append, orderedInsert_cons, if_pos hxy.le, nil_append]
    | cons c before ih =>
      obtain ⟨hc, hrest⟩ := forall_mem_cons.mp hbefore
      rw [cons_append, orderedInsert_cons, if_neg (not_le_of_gt hc), ih hrest,
        cons_append]
  -- both are inserted at the same place
  have hfirst : ∀ x : α, key x = key a →
      (sortBy key l).orderedInsert (fun c d => key c ≤ key d) x =
        ((sortBy key l).takeWhile fun c => ¬ key a ≤ key c) ++
          x :: (sortBy key l).dropWhile fun c => ¬ key a ≤ key c := by
    intro x hx
    rw [orderedInsert_eq_take_drop, hx]
  have hbefore : ∀ c ∈ (sortBy key l).takeWhile fun c => ¬ key a ≤ key c, key c < key a := by
    intro c hc
    have hnot := mem_takeWhile_imp hc
    exact lt_of_not_ge (of_decide_eq_true hnot)
  refine ⟨_, (sortBy key l).dropWhile fun c => ¬ key a ≤ key c, ?_, ?_, hbefore⟩
  · change (((sortBy key l).orderedInsert _ b).orderedInsert _ a) = _
    rw [hfirst b h.symm, hinsert a b h _ _ hbefore]
  · change (((sortBy key l).orderedInsert _ a).orderedInsert _ b) = _
    rw [hfirst a rfl, hinsert b a h.symm _ _ (h ▸ hbefore)]

end ContextDesk.Lib
