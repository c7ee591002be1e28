import ContextDesk.Lib.Keyset

/-!
# One pass over a list that may refuse

`visit step s l` hands the elements of `l` to `step` one after the other, each with the state that
the elements before it left, and ends with the first refusal. `Admits` says what a step accepts: a
condition on the element alone, and keys of its own that were not seen before. A pass over a list
whose step is of this kind is of this kind again (`Admits.visit`), so nested loops are read back
from the inside out. `Shuffled R` relates two lists whose elements are related by `R` in some
order; what a pass accepts does not depend on that order.
-/

open List

namespace ContextDesk.Lib

variable {σ α β γ ε κ : Type}

def visit (step : σ → α → Except ε (β × σ)) : σ → List α → Except ε (List β × σ)
  | s, [] => .ok ([], s)
  | s, a :: l =>
    match step s a with
    | .error e => .error e
    | .ok (b, s) =>
      match visit step s l with
      | .error e => .error e
      | .ok (bs, s) => .ok (b :: bs, s)

variable {l : List α}

theorem visit_cons_ok {step : σ → α → Except ε (β × σ)} {s : σ} {a : α} {r : List β × σ} :
    visit step s (a :: l) = .ok r ↔
      ∃ b s' bs, step s a = .ok (b, s') ∧ visit step s' l = .ok (bs, r.2) ∧ r.1 = b :: bs := by
  obtain ⟨bs, s''⟩ := r
  rw [visit]
  constructor
  · intro h
    split at h
    · cases h
    · rename_i b s' hstep
      split at h
      · cases h
      · rename_i bs' t hrest
        obtain ⟨rfl, rfl⟩ := Prod.mk.inj (Except.ok.inj h)
        exact ⟨b, s', bs', hstep, hrest, rfl⟩
  · rintro ⟨b, s', bs', hstep, hrest, rfl⟩
    rw [hstep]
    simp only [hrest]

/-- The step accepts the elements that meet `guard` and whose keys are different from each other
and from the keys seen before. It then gives `out` and goes on with `next`. -/
structure Admits (step : σ → α → Except ε (β × σ)) (seen : σ → List κ) (guard : α → Prop)
    (keys : α → List κ) (out : α → β) (next : σ → α → σ) : Prop where
  ok_iff : ∀ {s a r}, (seen s).Nodup →
    (step s a = .ok r ↔ guard a ∧ (seen s ++ keys a).Nodup ∧ r = (out a, next s a))
  seen_next : ∀ s a, (seen (next s a)).Perm (seen s ++ keys a)

section

variable {step : σ → α → Except ε (β × σ)} {seen : σ → List κ} {guard : α → Prop}
  {keys : α → List κ} {out : α → β} {next : σ → α → σ}

theorem Admits.visit (h : Admits step seen guard keys out next) :
    Admits (visit step) seen (fun l => ∀ a ∈ l, guard a) (fun l => l.flatMap keys)
      (fun l => l.map out) (fun s l => l.foldl next s) where
  ok_iff := by
    intro s l r hs
    induction l generalizing s r with
    | nil =>
      simp only [Lib.visit, Except.ok.injEq, not_mem_nil, false_implies, implies_true,
        flatMap_nil, append_nil, map_nil, foldl_nil, true_and]
      exact ⟨fun hr => ⟨hs, hr.symm⟩, fun hr => hr.2.symm⟩
    | cons a l ih =>
      have hperm : (seen (next s a) ++ l.flatMap keys).Perm (seen s ++ (a :: l).flatMap keys) := by
        rw [flatMap_cons, ← append_assoc]
        exact (h.seen_next s a).append_right _
      rw [visit_cons_ok, forall_mem_cons]
      constructor
      · rintro ⟨b, s', bs, hstep, hrest, hr⟩
        obtain ⟨hguard, hnodup, hout⟩ := (h.ok_iff hs).mp hstep
        obtain ⟨rfl, rfl⟩ := Prod.mk.inj hout
        have hs' : (seen (next s a)).Nodup := (h.seen_next s a).nodup_iff.mpr hnodup
        obtain ⟨hguards, hkeys, hrest⟩ := (ih hs').mp hrest
        obtain ⟨rfl, hlast⟩ := Prod.mk.inj hrest
        exact ⟨⟨hguard, hguards⟩, hperm.nodup_iff.mp hkeys, Prod.ext hr hlast⟩
      · rintro ⟨⟨hguard, hguards⟩, hkeys, rfl⟩
        have hnodup : (seen s ++ keys a).Nodup := by
          rw [flatMap_cons, ← append_assoc] at hkeys
          exact hkeys.of_append_left
        have hs' : (seen (next s a)).Nodup := (h.seen_next s a).nodup_iff.mpr hnodup
        refine ⟨out a, next s a, l.map out, (h.ok_iff hs).mpr ⟨hguard, hnodup, rfl⟩, ?_, rfl⟩
        exact (ih hs').mpr ⟨hguards, hperm.nodup_iff.mpr hkeys, rfl⟩
  seen_next := by
    intro s l
    induction l generalizing s with
    | nil => simp
    | cons a l ih =>
      rw [foldl_cons, flatMap_cons, ← append_assoc]
      exact (ih (next s a)).trans ((h.seen_next s a).append_right _)

end

/-- What the state says of the elements so far, along a loop. -/
theorem foldl_describes {next : σ → α → σ} {items : α → List γ} {D : List γ → σ → Prop}
    (hstep : ∀ done s a, D done s → D (done ++ items a) (next s a)) (l : List α) {done : List γ}
    {s : σ} (hs : D done s) : D (done ++ l.flatMap items) (l.foldl next s) := by
  induction l generalizing done s with
  | nil => simpa using hs
  | cons a l ih =>
    rw [flatMap_cons, ← append_assoc]
    exact ih (hstep done s a hs)

/-- The elements of the lists are related, in some order. -/
def Shuffled (R : α → β → Prop) (l : List α) (l' : List β) : Prop :=
  ∃ m, l.Perm m ∧ Forall₂ R m l'

variable {R : α → β → Prop} {l' : List β}

theorem Shuffled.forall_iff (h : Shuffled R l l') {P : α → Prop} {Q : β → Prop}
    (hPQ : ∀ a b, R a b → (P a ↔ Q b)) : (∀ a ∈ l, P a) ↔ ∀ b ∈ l', Q b := by
  obtain ⟨m, hperm, hrel⟩ := h
  have hm : (∀ a ∈ l, P a) ↔ ∀ a ∈ m, P a := forall_congr' fun a => by rw [hperm.mem_iff]
  rw [hm]
  clear hm hperm
  induction hrel with
  | nil => simp
  | cons hab _ ih =>
    rw [forall_mem_cons, forall_mem_cons]
    exact and_congr (hPQ _ _ hab) ih

theorem Shuffled.exists_iff (h : Shuffled R l l') {P : α → Prop} {Q : β → Prop}
    (hPQ : ∀ a b, R a b → (P a ↔ Q b)) : (∃ a ∈ l, P a) ↔ ∃ b ∈ l', Q b := by
  have hnot := not_congr (h.forall_iff fun a b hab => not_congr (hPQ a b hab))
  simpa only [not_forall, not_not, exists_prop] using hnot

theorem Shuffled.flatMap_perm (h : Shuffled R l l') {f : α → List γ} {g : β → List γ}
    (hfg : ∀ a b, R a b → (f a).Perm (g b)) : (l.flatMap f).Perm (l'.flatMap g) := by
  obtain ⟨m, hperm, hrel⟩ := h
  refine (hperm.flatMap_right f).trans ?_
  clear hperm
  induction hrel with
  | nil => rfl
  | cons hab _ ih =>
    rw [flatMap_cons, flatMap_cons]
    exact (hfg _ _ hab).append ih

theorem Shuffled.append {k : List α} {k' : List β} (h : Shuffled R l l') (h' : Shuffled R k k') :
    Shuffled R (l ++ k) (l' ++ k') := by
  obtain ⟨m, hperm, hrel⟩ := h
  obtain ⟨n, hperm', hrel'⟩ := h'
  exact ⟨m ++ n, hperm.append hperm', rel_append hrel hrel'⟩

theorem Shuffled.flatMap {δ : Type} {S : γ → δ → Prop} (h : Shuffled R l l') {f : α → List γ}
    {g : β → List δ} (hfg : ∀ a b, R a b → Shuffled S (f a) (g b)) :
    Shuffled S (l.flatMap f) (l'.flatMap g) := by
  obtain ⟨m, hperm, hrel⟩ := h
  have hm : Shuffled S (m.flatMap f) (l'.flatMap g) := by
    clear hperm
    induction hrel with
    | nil => exact ⟨[], .refl _, .nil⟩
    | cons hab _ ih =>
      rw [flatMap_cons, flatMap_cons]
      exact (hfg _ _ hab).append ih
  obtain ⟨n, hmn, hn⟩ := hm
  exact ⟨n, (hperm.flatMap_right f).trans hmn, hn⟩

theorem Shuffled.map {δ : Type} {S : γ → δ → Prop} (h : Shuffled R l l') {f : α → γ} {g : β → δ}
    (hfg : ∀ a b, R a b → S (f a) (g b)) : Shuffled S (l.map f) (l'.map g) := by
  obtain ⟨m, hperm, hrel⟩ := h
  refine ⟨m.map f, hperm.map f, ?_⟩
  rw [forall₂_map_left_iff, forall₂_map_right_iff]
  exact hrel.imp fun a b hab => hfg a b hab

end ContextDesk.Lib

/-!
## Sorting what is shuffled

Two lists whose elements are related in some order are related element by element once both are
sorted by keys that the relation keeps and that are all different.
-/

namespace ContextDesk.Lib

variable {α β γ κ : Type}

variable {R : α → β → Prop}

theorem forall₂_orderedInsert {le : α → α → Prop} {le' : β → β → Prop} [DecidableRel le]
    [DecidableRel le'] (hle : ∀ a b c d, R a c → R b d → (le a b ↔ le' c d)) {a : α} {b : β}
    (hab : R a b) {l : List α} {l' : List β} (h : Forall₂ R l l') :
    Forall₂ R (l.orderedInsert le a) (l'.orderedInsert le' b) := by
  induction h with
  | nil => exact .cons hab .nil
  | @cons c d l l' hcd hrest ih =>
    rw [orderedInsert_cons, orderedInsert_cons]
    by_cases hc : le a c
    · rw [if_pos hc, if_pos ((hle a c b d hab hcd).mp hc)]
      exact .cons hab (.cons hcd hrest)
    · rw [if_neg hc, if_neg fun hd => hc ((hle a c b d hab hcd).mpr hd)]
      exact .cons hcd ih

theorem forall₂_insertionSort {le : α → α → Prop} {le' : β → β → Prop} [DecidableRel le]
    [DecidableRel le'] (hle : ∀ a b c d, R a c → R b d → (le a b ↔ le' c d)) {l : List α}
    {l' : List β} (h : Forall₂ R l l') :
    Forall₂ R (l.insertionSort le) (l'.insertionSort le') := by
  induction h with
  | nil => exact .nil
  | cons hab _ ih => exact forall₂_orderedInsert hle hab ih

theorem Shuffled.filter {p : α → Bool} {q : β → Bool} (hpq : ∀ a b, R a b → p a = q b)
    {l : List α} {l' : List β} (h : Shuffled R l l') : Shuffled R (l.filter p) (l'.filter q) := by
  obtain ⟨m, hperm, hrel⟩ := h
  refine ⟨m.filter p, hperm.filter p, ?_⟩
  clear hperm
  induction hrel with
  | nil => exact .nil
  | @cons a b m l' hab _ ih =>
    rw [filter_cons, filter_cons, ← hpq a b hab]
    split
    · exact .cons hab ih
    · exact ih

theorem Shuffled.insertionSort [LinearOrder κ] {key : α → κ} {key' : β → κ} {le : α → α → Prop}
    {le' : β → β → Prop} [DecidableRel le] [DecidableRel le']
    (hle : ∀ a b, le a b ↔ key a ≤ key b) (hle' : ∀ a b, le' a b ↔ key' a ≤ key' b)
    (hkey : ∀ a b, R a b → key a = key' b) {l : List α} {l' : List β} (h : Shuffled R l l')
    (hd : (l.map key).Nodup) : Forall₂ R (l.insertionSort le) (l'.insertionSort le') := by
  obtain ⟨m, hperm, hrel⟩ := h
  have hsort : l.insertionSort le = m.insertionSort le := by
    have hm := (hperm.map key).nodup_iff.mp hd
    refine (Keyset.ascending_insertionSort hle hd).eq_of_mem
      (Keyset.ascending_insertionSort hle hm) fun a => ?_
    rw [mem_insertionSort, mem_insertionSort, hperm.mem_iff]
  rw [hsort]
  refine forall₂_insertionSort (fun a b c d hac hbd => ?_) hrel
  rw [hle, hle', hkey a c hac, hkey b d hbd]

theorem flatMap_eq_of_forall₂ {f : α → List γ} {g : β → List γ} {l : List α} {l' : List β}
    (h : Forall₂ R l l') (hfg : ∀ a ∈ l, ∀ b, R a b → f a = g b) :
    l.flatMap f = l'.flatMap g := by
  induction h with
  | nil => rfl
  | @cons a b l l' hab _ ih =>
    rw [flatMap_cons, flatMap_cons, hfg a mem_cons_self b hab,
      ih fun c hc => hfg c (mem_cons_of_mem _ hc)]

end ContextDesk.Lib
