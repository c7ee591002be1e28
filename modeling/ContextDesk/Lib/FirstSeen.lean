import Mathlib.Data.List.Forall2
import Mathlib.Data.List.Pairwise

/-!
# The first of each key

`firstSeen` keeps the first element of each key, `markSeen` keeps all and marks the others, and
`updateFirst` changes the first element with a property.
-/

namespace ContextDesk.Lib

open List

variable {α β κ : Type}

def updateFirst (p : α → Bool) (f : α → α) : List α → List α
  | [] => []
  | a :: l => if p a then f a :: l else a :: updateFirst p f l

variable {l : List α}

theorem updateFirst_eq_self {p : α → Bool} {f : α → α} (h : ∀ a ∈ l, p a = true → f a = a) :
    updateFirst p f l = l := by
  induction l with
  | nil => rfl
  | cons a l ih =>
    unfold updateFirst
    by_cases ha : p a = true
    · rw [if_pos ha, h a mem_cons_self ha]
    · rw [if_neg ha, ih fun b hb => h b (mem_cons_of_mem a hb)]

theorem updateFirst_split {p : α → Bool} {f : α → α} {front : List α} {a : α} {back : List α}
    (hfront : ∀ b ∈ front, p b = false) (ha : p a = true) :
    updateFirst p f (front ++ a :: back) = front ++ f a :: back := by
  induction front with
  | nil => exact if_pos ha
  | cons b front ih =>
    rw [cons_append, updateFirst, hfront b mem_cons_self, if_neg Bool.false_ne_true,
      ih fun c hc => hfront c (mem_cons_of_mem b hc)]
    rfl

variable {T : α → β → Prop} {l' : List β}

theorem exists_of_mem_forall₂ (h : Forall₂ T l l') {b : β} (hb : b ∈ l') : ∃ a ∈ l, T a b := by
  induction h with
  | nil => exact absurd hb not_mem_nil
  | @cons a b' l l' ha h ih =>
    rcases mem_cons.mp hb with rfl | hb
    · exact ⟨a, mem_cons_self, ha⟩
    · obtain ⟨c, hc, hT⟩ := ih hb
      exact ⟨c, mem_cons_of_mem a hc, hT⟩

theorem forall₂_split {front : List β} {b : β} {back : List β}
    (h : Forall₂ T l (front ++ b :: back)) :
    ∃ front' a back', l = front' ++ a :: back' ∧ Forall₂ T front' front ∧ T a b ∧
      Forall₂ T back' back := by
  induction front generalizing l with
  | nil =>
    cases h with
    | cons ha hback => exact ⟨[], _, _, rfl, .nil, ha, hback⟩
  | cons c front ih =>
    cases h with
    | cons hc h =>
      obtain ⟨front', a, back', rfl, hfront, ha, hback⟩ := ih h
      exact ⟨_ :: front', a, back', rfl, .cons hc hfront, ha, hback⟩

theorem forall₂_join {front : List α} {a : α} {back : List α} {front' : List β} {b : β}
    {back' : List β} (hfront : Forall₂ T front front') (ha : T a b)
    (hback : Forall₂ T back back') :
    Forall₂ T (front ++ a :: back) (front' ++ b :: back') :=
  rel_append hfront (.cons ha hback)

theorem forall₂_imp_of_mem {T' : α → β → Prop} (h : Forall₂ T l l')
    (himp : ∀ a ∈ l, ∀ b, T a b → T' a b) : Forall₂ T' l l' := by
  induction h with
  | nil => exact .nil
  | @cons a b l l' ha h ih =>
    exact .cons (himp a mem_cons_self b ha) (ih fun c hc => himp c (mem_cons_of_mem a hc))

theorem map_eq_of_forall₂ {γ : Type} {f : α → γ} {g : β → γ}
    (h : Forall₂ (fun a b => g b = f a) l l') : l'.map g = l.map f := by
  induction h with
  | nil => rfl
  | cons hab _ ih => rw [map_cons, map_cons, hab, ih]

theorem forall₂_getElem? (h : Forall₂ T l l') {i : Nat} {a : α} {b : β} (ha : l[i]? = some a)
    (hb : l'[i]? = some b) : T a b := by
  induction h generalizing i with
  | nil => cases ha
  | cons hab _ ih =>
    cases i with
    | zero =>
      cases ha
      cases hb
      exact hab
    | succ i => exact ih ha hb

theorem exists_getElem?_of_forall₂ (h : Forall₂ T l l') {i : Nat} {a : α}
    (ha : l[i]? = some a) : ∃ b, l'[i]? = some b := by
  have hi := (List.getElem?_eq_some_iff.mp ha).1
  exact ⟨_, getElem?_eq_getElem (h.length_eq ▸ hi)⟩

/-- A relation between earlier and later elements, carried over to a related list. -/
theorem pairwise_of_forall₂ {R : α → α → Prop} {R' : β → β → Prop} (h : Forall₂ T l l')
    (hl : l.Pairwise R) (hR : ∀ a a' b b', T a a' → T b b' → R a b → R' a' b') :
    l'.Pairwise R' := by
  induction h with
  | nil => exact .nil
  | @cons a a' l l' ha h ih =>
    rw [pairwise_cons] at hl ⊢
    refine ⟨fun b' hb' => ?_, ih hl.2⟩
    obtain ⟨b, hb, hT⟩ := exists_of_mem_forall₂ h hb'
    exact hR a a' b b' ha hT (hl.1 b hb)

/-- Of two elements one is the earlier. -/
theorem pairwise_either {R : α → α → Prop} (h : l.Pairwise R) {a b : α} (ha : a ∈ l) (hb : b ∈ l)
    (hne : a ≠ b) : R a b ∨ R b a := by
  have hsymm : Std.Symm fun a b => R a b ∨ R b a := ⟨fun _ _ => Or.symm⟩
  exact (h.imp Or.inl : l.Pairwise fun a b => R a b ∨ R b a).forall ha hb hne

variable [DecidableEq κ]

def firstSeen (key : α → κ) : List κ → List α → List α
  | _, [] => []
  | seen, a :: l =>
    if key a ∈ seen then firstSeen key seen l else a :: firstSeen key (key a :: seen) l

def markSeen (key : α → κ) (mark : α → α) : List κ → List α → List α
  | _, [] => []
  | seen, a :: l =>
    if key a ∈ seen then mark a :: markSeen key mark seen l
    else a :: markSeen key mark (key a :: seen) l

theorem firstSeen_cons (key : α → κ) (seen : List κ) (a : α) (l : List α) :
    firstSeen key seen (a :: l) =
      if key a ∈ seen then firstSeen key seen l else a :: firstSeen key (key a :: seen) l := rfl

theorem firstSeen_sublist (key : α → κ) (seen : List κ) (l : List α) :
    (firstSeen key seen l).Sublist l := by
  induction l generalizing seen with
  | nil => exact List.Sublist.refl _
  | cons a l ih =>
    unfold firstSeen
    by_cases ha : key a ∈ seen
    · rw [if_pos ha]
      exact (ih seen).cons a
    · rw [if_neg ha]
      exact (ih (key a :: seen)).cons_cons a

theorem firstSeen_eq_self {key : α → κ} {seen : List κ} (hnodup : (l.map key).Nodup)
    (hseen : ∀ a ∈ l, key a ∉ seen) : firstSeen key seen l = l := by
  induction l generalizing seen with
  | nil => rfl
  | cons a l ih =>
    rw [map_cons, nodup_cons] at hnodup
    rw [firstSeen_cons, if_neg (hseen a mem_cons_self), ih hnodup.2]
    intro b hb hmem
    rcases mem_cons.mp hmem with he | hmem
    · exact hnodup.1 (he ▸ mem_map.mpr ⟨b, hb, rfl⟩)
    · exact hseen b (mem_cons_of_mem a hb) hmem

theorem firstSeen_append (key : α → κ) (seen : List κ) (l l' : List α) :
    firstSeen key seen (l ++ l') = firstSeen key seen l ++
      firstSeen key (((firstSeen key seen l).map key).reverse ++ seen) l' := by
  induction l generalizing seen with
  | nil => rfl
  | cons a l ih =>
    rw [cons_append, firstSeen_cons, firstSeen_cons]
    by_cases ha : key a ∈ seen
    · rw [if_pos ha, if_pos ha, ih seen]
    · rw [if_neg ha, if_neg ha, ih (key a :: seen), map_cons, reverse_cons,
        append_assoc, cons_append]
      rfl

/-- Of each key that was not seen before the first is kept. -/
theorem filter_firstSeen (key : α → κ) (k : κ) (seen : List κ) (l : List α) :
    (firstSeen key seen l).filter (fun a => key a = k) =
      if k ∈ seen then [] else (l.find? fun a => key a = k).toList := by
  induction l generalizing seen with
  | nil => simp [firstSeen]
  | cons a l ih =>
    unfold firstSeen
    by_cases ha : key a ∈ seen
    · rw [if_pos ha, ih seen]
      by_cases hk : k ∈ seen
      · rw [if_pos hk, if_pos hk]
      · have hne : key a ≠ k := fun heq => hk (heq ▸ ha)
        rw [if_neg hk, if_neg hk, find?_cons_of_neg (p := fun a => decide (key a = k))
          (fun h => hne (of_decide_eq_true h))]
    · rw [if_neg ha, filter_cons, ih (key a :: seen)]
      by_cases hkey : key a = k
      · subst hkey
        rw [if_pos (decide_eq_true rfl), if_pos mem_cons_self, if_neg ha,
          find?_cons_of_pos (p := fun b => decide (key b = key a)) (decide_eq_true rfl)]
        rfl
      · rw [if_neg (fun h => hkey (of_decide_eq_true h)),
          find?_cons_of_neg (p := fun a => decide (key a = k))
            (fun h => hkey (of_decide_eq_true h))]
        have hmem : k ∈ key a :: seen ↔ k ∈ seen := by
          rw [mem_cons]
          exact or_iff_right (Ne.symm hkey)
        simp only [hmem]

theorem markSeen_forall₂ (key : α → κ) (mark : α → α) (seen : List κ) (l : List α) :
    Forall₂ (fun a b => b = a ∨ b = mark a) l (markSeen key mark seen l) := by
  induction l generalizing seen with
  | nil => exact .nil
  | cons a l ih =>
    unfold markSeen
    by_cases ha : key a ∈ seen
    · rw [if_pos ha]
      exact .cons (.inr rfl) (ih seen)
    · rw [if_neg ha]
      exact .cons (.inl rfl) (ih _)

/-- The first of a key is not marked. -/
theorem mem_markSeen {key : α → κ} {mark : α → α} {k : κ} {seen : List κ} {a : α}
    (h : l.find? (fun b => key b = k) = some a) (hk : k ∉ seen) : a ∈ markSeen key mark seen l := by
  induction l generalizing seen with
  | nil => cases h
  | cons b l ih =>
    unfold markSeen
    by_cases hb : key b = k
    · rw [find?_cons_of_pos (p := fun b => decide (key b = k)) (decide_eq_true hb)] at h
      cases h
      rw [if_neg (hb ▸ hk)]
      exact mem_cons_self
    · rw [find?_cons_of_neg (p := fun b => decide (key b = k))
        (fun h => hb (of_decide_eq_true h))] at h
      by_cases hseen : key b ∈ seen
      · rw [if_pos hseen]
        exact mem_cons_of_mem _ (ih h hk)
      · rw [if_neg hseen]
        refine mem_cons_of_mem _ (ih h fun hmem => ?_)
        rcases mem_cons.mp hmem with heq | hmem
        · exact hb heq.symm
        · exact hk hmem

/-- Whatever has the key of an earlier element is marked. -/
theorem markSeen_marks {key : α → κ} {mark : α → α} (hkey : ∀ a, key (mark a) = key a)
    (seen : List κ) (l : List α) :
    (∀ b ∈ markSeen key mark seen l, key b ∈ seen → ∃ a, b = mark a) ∧
      (markSeen key mark seen l).Pairwise fun a b => key a = key b → ∃ c, b = mark c := by
  induction l generalizing seen with
  | nil => exact ⟨nofun, .nil⟩
  | cons a l ih =>
    unfold markSeen
    by_cases ha : key a ∈ seen
    · rw [if_pos ha]
      obtain ⟨hseen, hpair⟩ := ih seen
      refine ⟨fun b hb hkb => ?_, pairwise_cons.mpr ⟨fun b hb hab => ?_, hpair⟩⟩
      · rcases mem_cons.mp hb with rfl | hb
        · exact ⟨a, rfl⟩
        · exact hseen b hb hkb
      · rw [hkey] at hab
        exact hseen b hb (hab ▸ ha)
    · rw [if_neg ha]
      obtain ⟨hseen, hpair⟩ := ih (key a :: seen)
      refine ⟨fun b hb hkb => ?_, pairwise_cons.mpr ⟨fun b hb hab => ?_, hpair⟩⟩
      · rcases mem_cons.mp hb with rfl | hb
        · exact absurd hkb ha
        · exact hseen b hb (mem_cons_of_mem _ hkb)
      · exact hseen b hb (hab ▸ mem_cons_self)

end ContextDesk.Lib
