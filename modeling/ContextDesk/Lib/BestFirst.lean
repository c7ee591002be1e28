import ContextDesk.Lib.Outcome

/-!
# Best-first search with a bounded result

A `Space` says where a node leads, what its score is (`none` for a node that is not there) and which
nodes may be kept. A `Walk` is the state of a search: the nodes seen, the candidates still to expand
and the best nodes kept, at most `width` of them. `expand` is one pass of the search, `run` is the
passes that fuel allows.

* `expand` fails only when the search is over, and the nodes not seen yet and the candidates
  together get fewer with each pass: `finishes`.
* What is kept is distinct, scored, admitted and no longer than `width`: `Tidy`.
* A search wide enough for all nodes keeps exactly the admitted ones that it can reach:
  `mem_kept_iff`.
-/

namespace ContextDesk.Lib.BestFirst

open List

variable {α S : Type} [DecidableEq α] [LinearOrder S]

structure Space (α S : Type) where
  next : α → List α
  score : α → Option S
  admits : α → Bool
  width : Nat

structure Walk (α S : Type) where
  visited : List α
  candidates : List (α × S)
  kept : List (α × S)

/-! ## Scored lists -/

/-- Highest score first; nodes with one score keep their order. -/
def descending (l : List (α × S)) : List (α × S) := l.insertionSort fun a b => b.2 ≤ a.2

/-- The lowest score of a list. -/
def worst (l : List (α × S)) : WithTop S := l.foldl (fun acc p => min acc p.2) ⊤

omit [DecidableEq α] in
theorem descending_perm (l : List (α × S)) : (descending l).Perm l := perm_insertionSort _ l

omit [DecidableEq α] in
@[simp] theorem mem_descending {l : List (α × S)} {p : α × S} : p ∈ descending l ↔ p ∈ l :=
  (descending_perm l).mem_iff

omit [DecidableEq α] in
@[simp] theorem length_descending (l : List (α × S)) : (descending l).length = l.length :=
  (descending_perm l).length_eq

omit [DecidableEq α] in
theorem descending_pairwise (l : List (α × S)) :
    (descending l).Pairwise fun a b => b.2 ≤ a.2 := by
  unfold descending
  have total : Std.Total fun a b : α × S => b.2 ≤ a.2 := ⟨fun a b => le_total b.2 a.2⟩
  have trans : IsTrans (α × S) fun a b => b.2 ≤ a.2 := ⟨fun _ _ _ h h' => h'.trans h⟩
  exact pairwise_insertionSort _ l

omit [DecidableEq α] in
theorem nodup_descending {l : List (α × S)} :
    ((descending l).map Prod.fst).Nodup ↔ (l.map Prod.fst).Nodup :=
  ((descending_perm l).map Prod.fst).nodup_iff

/-- The best of a list, when it is longer than allowed. -/
def trim (width : Nat) (l : List (α × S)) : List (α × S) :=
  if width < l.length then (descending l).take width else l

omit [DecidableEq α] in
theorem trim_of_le {width : Nat} {l : List (α × S)} (h : l.length ≤ width) : trim width l = l :=
  if_neg (by omega)

omit [DecidableEq α] in
theorem length_trim_le (width : Nat) (l : List (α × S)) : (trim width l).length ≤ width := by
  unfold trim
  by_cases h : width < l.length
  · rw [if_pos h, length_take]
    exact min_le_left _ _
  · rw [if_neg h]
    omega

omit [DecidableEq α] in
theorem mem_of_mem_trim {width : Nat} {l : List (α × S)} {p : α × S} (h : p ∈ trim width l) :
    p ∈ l := by
  unfold trim at h
  by_cases hw : width < l.length
  · rw [if_pos hw] at h
    exact mem_descending.mp (mem_of_mem_take h)
  · rwa [if_neg hw] at h

omit [DecidableEq α] in
theorem nodup_trim {width : Nat} {l : List (α × S)} (h : (l.map Prod.fst).Nodup) :
    ((trim width l).map Prod.fst).Nodup := by
  unfold trim
  by_cases hw : width < l.length
  · rw [if_pos hw, map_take]
    exact (nodup_descending.mpr h).sublist (take_sublist _ _)
  · rwa [if_neg hw]

/-! ## The search -/

/-- A neighbour of the node being expanded. -/
def visit (space : Space α S) (walk : Walk α S) (n : α) : Walk α S :=
  if n ∈ walk.visited then walk
  else
    match space.score n with
    | none => { walk with visited := n :: walk.visited }
    | some sc =>
      if walk.kept.length < space.width ∨ worst walk.kept < sc then
        { visited := n :: walk.visited
          candidates := walk.candidates ++ [(n, sc)]
          kept :=
            if space.admits n then trim space.width (walk.kept ++ [(n, sc)]) else walk.kept }
      else { walk with visited := n :: walk.visited }

/-- One pass: the best candidate and the walk after it, or nothing when the search is over. -/
def expand (space : Space α S) (walk : Walk α S) : Option (α × Walk α S) :=
  match descending walk.candidates with
  | [] => none
  | (c, sc) :: rest =>
    if walk.kept ≠ [] ∧ (sc : WithTop S) < worst walk.kept ∧ space.width ≤ walk.kept.length then none
    else some (c, (space.next c).foldl (visit space) { walk with candidates := rest })

/-- The nodes expanded by as many passes as the fuel allows, and the walk after them. -/
def run (space : Space α S) : Nat → Walk α S → List α × Walk α S
  | 0, walk => ([], walk)
  | fuel + 1, walk =>
    match expand space walk with
    | none => ([], walk)
    | some (c, walk) => (c :: (run space fuel walk).1, (run space fuel walk).2)

/-- The walk that has seen its entry only. -/
def start (space : Space α S) (entry : α) (sc : S) : Walk α S where
  visited := [entry]
  candidates := [(entry, sc)]
  kept := if space.admits entry then [(entry, sc)] else []

/-! ## What a pass can do -/

theorem visit_cases (space : Space α S) (walk : Walk α S) (n : α) :
    (n ∈ walk.visited ∧ visit space walk n = walk) ∨
    (n ∉ walk.visited ∧ visit space walk n = { walk with visited := n :: walk.visited } ∧
      (space.score n = none ∨ space.width ≤ walk.kept.length)) ∨
    (n ∉ walk.visited ∧ ∃ sc, space.score n = some sc ∧
      visit space walk n =
        { visited := n :: walk.visited
          candidates := walk.candidates ++ [(n, sc)]
          kept :=
            if space.admits n then trim space.width (walk.kept ++ [(n, sc)]) else walk.kept }) := by
  unfold visit
  by_cases hn : n ∈ walk.visited
  · exact Or.inl ⟨hn, if_pos hn⟩
  rw [if_neg hn]
  cases hsc : space.score n with
  | none => exact Or.inr (Or.inl ⟨hn, rfl, Or.inl rfl⟩)
  | some sc =>
    by_cases hroom : walk.kept.length < space.width ∨ worst walk.kept < sc
    · exact Or.inr (Or.inr ⟨hn, sc, rfl, if_pos hroom⟩)
    · refine Or.inr (Or.inl ⟨hn, if_neg hroom, Or.inr ?_⟩)
      rw [not_or, not_lt] at hroom
      exact hroom.1

variable {walk walk' : Walk α S}

theorem expand_cases {space : Space α S} {c : α} (h : expand space walk = some (c, walk')) :
    ∃ sc rest, ((c, sc) :: rest).Perm walk.candidates ∧
      walk' = (space.next c).foldl (visit space) { walk with candidates := rest } := by
  unfold expand at h
  have hperm := descending_perm walk.candidates
  cases hd : descending walk.candidates with
  | nil => simp [hd] at h
  | cons p rest =>
    obtain ⟨c', sc⟩ := p
    rw [hd] at h hperm
    simp only at h
    split at h
    · cases h
    · simp only [Option.some.injEq, Prod.mk.injEq] at h
      obtain ⟨rfl, rfl⟩ := h
      exact ⟨sc, rest, hperm, rfl⟩

theorem expand_none {space : Space α S} (h : expand space walk = none) :
    walk.candidates = [] ∨ space.width ≤ walk.kept.length := by
  unfold expand at h
  have hperm := descending_perm walk.candidates
  cases hd : descending walk.candidates with
  | nil =>
    rw [hd] at hperm
    exact Or.inl (nil_perm.mp hperm)
  | cons p rest =>
    rw [hd] at h
    simp only at h
    split at h
    · rename_i hbreak
      exact Or.inr hbreak.2.2
    · cases h

theorem mem_visited_visit {space : Space α S} {n a : α} :
    a ∈ (visit space walk n).visited ↔ a = n ∨ a ∈ walk.visited := by
  rcases visit_cases space walk n with ⟨hn, e⟩ | ⟨-, e, -⟩ | ⟨-, sc, -, e⟩
  · rw [e]
    constructor
    · exact Or.inr
    · rintro (rfl | ha)
      · exact hn
      · exact ha
  · rw [e, mem_cons]
  · rw [e, mem_cons]

theorem mem_visited_foldl {space : Space α S} {l : List α} {a : α} :
    a ∈ (l.foldl (visit space) walk).visited ↔ a ∈ l ∨ a ∈ walk.visited := by
  induction l generalizing walk with
  | nil => simp
  | cons n l ih =>
    rw [foldl_cons, ih, mem_visited_visit, mem_cons]
    tauto

/-! ## Tidy walks -/

/-- No node is a candidate twice or kept twice, and each of them has been seen with its score. -/
structure Tidy (space : Space α S) (walk : Walk α S) : Prop where
  candidates_nodup : (walk.candidates.map Prod.fst).Nodup
  kept_nodup : (walk.kept.map Prod.fst).Nodup
  candidates_seen : ∀ p ∈ walk.candidates, p.1 ∈ walk.visited ∧ space.score p.1 = some p.2
  kept_seen : ∀ p ∈ walk.kept, p.1 ∈ walk.visited ∧ space.score p.1 = some p.2
  kept_admitted : ∀ p ∈ walk.kept, space.admits p.1 = true
  kept_length : walk.kept.length ≤ space.width

omit [DecidableEq α] [LinearOrder S] in
theorem tidy_start {space : Space α S} {entry : α} {sc : S} (hsc : space.score entry = some sc)
    (hwidth : 0 < space.width) : Tidy space (start space entry sc) := by
  unfold start
  cases hadm : space.admits entry with
  | true => constructor <;> simp [hsc, hadm]; omega
  | false => constructor <;> simp [hsc]

omit [DecidableEq α] [LinearOrder S] in
theorem nodup_push {l : List (α × S)} {n : α} {sc : S} (h : (l.map Prod.fst).Nodup)
    (hn : ∀ p ∈ l, p.1 ≠ n) : ((l ++ [(n, sc)]).map Prod.fst).Nodup := by
  rw [map_append, nodup_append]
  refine ⟨h, nodup_singleton _, ?_⟩
  intro a ha b hb
  obtain ⟨p, hp, rfl⟩ := mem_map.mp ha
  rw [map_singleton, mem_singleton] at hb
  rw [hb]
  exact hn p hp

theorem Tidy.visit {space : Space α S} {walk : Walk α S} (h : Tidy space walk) (n : α) :
    Tidy space (visit space walk n) := by
  have grows : ∀ {a}, a ∈ walk.visited → a ∈ n :: walk.visited := mem_cons_of_mem _
  rcases visit_cases space walk n with ⟨-, e⟩ | ⟨-, e, -⟩ | ⟨hn, sc, hsc, e⟩
  · rwa [e]
  · rw [e]
    exact { h with
      candidates_seen := fun p hp => ⟨grows (h.candidates_seen p hp).1, (h.candidates_seen p hp).2⟩
      kept_seen := fun p hp => ⟨grows (h.kept_seen p hp).1, (h.kept_seen p hp).2⟩ }
  rw [e]
  have hkept : (((walk.kept ++ [(n, sc)]).map Prod.fst)).Nodup :=
    nodup_push h.kept_nodup fun p hp hpn => hn (hpn ▸ (h.kept_seen p hp).1)
  have hseen : ∀ p ∈ walk.kept ++ [(n, sc)],
      p.1 ∈ n :: walk.visited ∧ space.score p.1 = some p.2 := by
    intro p hp
    rcases mem_append.mp hp with hp | hp
    · exact ⟨grows (h.kept_seen p hp).1, (h.kept_seen p hp).2⟩
    · rw [mem_singleton.mp hp]
      exact ⟨mem_cons_self, hsc⟩
  constructor
  · exact nodup_push h.candidates_nodup fun p hp hpn => hn (hpn ▸ (h.candidates_seen p hp).1)
  · simp only
    split
    · exact nodup_trim hkept
    · exact h.kept_nodup
  · intro p hp
    rcases mem_append.mp hp with hp | hp
    · exact ⟨grows (h.candidates_seen p hp).1, (h.candidates_seen p hp).2⟩
    · rw [mem_singleton.mp hp]
      exact ⟨mem_cons_self, hsc⟩
  · intro p hp
    simp only at hp
    split at hp
    · exact hseen p (mem_of_mem_trim hp)
    · exact hseen p (mem_append_left _ hp)
  · intro p hp
    simp only at hp
    split at hp
    · rename_i hadm
      rcases mem_append.mp (mem_of_mem_trim hp) with hp | hp
      · exact h.kept_admitted p hp
      · rw [mem_singleton.mp hp]
        exact hadm
    · exact h.kept_admitted p hp
  · simp only
    split
    · exact length_trim_le _ _
    · exact h.kept_length

theorem Tidy.foldl {space : Space α S} (h : Tidy space walk) (l : List α) :
    Tidy space (l.foldl (BestFirst.visit space) walk) := by
  induction l generalizing walk with
  | nil => exact h
  | cons n l ih => exact ih (h.visit n)

omit [DecidableEq α] [LinearOrder S] in
/-- A walk with its best candidate taken out. -/
theorem Tidy.take {space : Space α S} (h : Tidy space walk) {p : α × S} {rest : List (α × S)}
    (hp : (p :: rest).Perm walk.candidates) :
    Tidy space { walk with candidates := rest } ∧ p.1 ∈ walk.visited ∧
      ∀ q ∈ rest, q.1 ≠ p.1 := by
  have hnodup : ((p :: rest).map Prod.fst).Nodup :=
    (hp.map Prod.fst).nodup_iff.mpr h.candidates_nodup
  rw [map_cons, nodup_cons] at hnodup
  refine ⟨{ h with
      candidates_nodup := hnodup.2
      candidates_seen := fun q hq =>
        h.candidates_seen q (hp.mem_iff.mp (mem_cons_of_mem _ hq)) },
    (h.candidates_seen p (hp.mem_iff.mp mem_cons_self)).1, ?_⟩
  intro q hq e
  exact hnodup.1 (e ▸ mem_map_of_mem hq)

theorem Tidy.expand {space : Space α S} {c : α} (h : Tidy space walk)
    (he : expand space walk = some (c, walk')) : Tidy space walk' := by
  obtain ⟨sc, rest, hp, rfl⟩ := expand_cases he
  exact (h.take hp).1.foldl _

/-! ## Termination -/

/-- How many of the stored nodes have not been seen. -/
def unseen (stored visited : List α) : Nat := (stored.filter fun n => n ∉ visited).length

theorem unseen_cons (stored visited : List α) (n : α) :
    unseen stored (n :: visited) =
      ((stored.filter fun a => a ∉ visited).filter fun a => a ≠ n).length := by
  unfold unseen
  rw [filter_filter]
  congr 1
  refine filter_congr fun a _ => ?_
  simp [not_or]

theorem unseen_cons_le (stored visited : List α) (n : α) :
    unseen stored (n :: visited) ≤ unseen stored visited := by
  rw [unseen_cons]
  exact length_filter_le _ _

theorem unseen_cons_lt {stored visited : List α} {n : α} (hn : n ∈ stored) (hv : n ∉ visited) :
    unseen stored (n :: visited) < unseen stored visited := by
  rw [unseen_cons]
  refine length_filter_lt_length_iff_exists.mpr ⟨n, ?_, by simp⟩
  exact mem_filter.mpr ⟨hn, by simpa using hv⟩

section Stored

variable {space : Space α S} {stored : List α}

theorem unseen_visit (hstored : ∀ n, space.score n ≠ none → n ∈ stored) (walk : Walk α S) (n : α) :
    unseen stored (visit space walk n).visited + (visit space walk n).candidates.length ≤
      unseen stored walk.visited + walk.candidates.length := by
  rcases visit_cases space walk n with ⟨-, e⟩ | ⟨-, e, -⟩ | ⟨hn, sc, hsc, e⟩
  · rw [e]
  · rw [e]
    exact Nat.add_le_add_right (unseen_cons_le _ _ _) _
  · have hlt := unseen_cons_lt (hstored n (by simp [hsc])) hn
    rw [e]
    simp only [length_append, length_singleton]
    omega

theorem unseen_foldl (hstored : ∀ n, space.score n ≠ none → n ∈ stored) (walk : Walk α S)
    (l : List α) :
    unseen stored (l.foldl (visit space) walk).visited +
        (l.foldl (visit space) walk).candidates.length ≤
      unseen stored walk.visited + walk.candidates.length := by
  induction l generalizing walk with
  | nil => exact le_rfl
  | cons n l ih => exact (ih _).trans (unseen_visit hstored walk n)

theorem unseen_expand (hstored : ∀ n, space.score n ≠ none → n ∈ stored) {c : α}
    (he : expand space walk = some (c, walk')) :
    unseen stored walk'.visited + walk'.candidates.length <
      unseen stored walk.visited + walk.candidates.length := by
  obtain ⟨sc, rest, hp, rfl⟩ := expand_cases he
  have hlen := hp.length_eq
  rw [length_cons] at hlen
  have hfold := unseen_foldl hstored { walk with candidates := rest } (space.next c)
  simp only at hfold
  omega

/-- With as much fuel as there are nodes not seen and candidates, the search comes to its end. -/
theorem finishes (hstored : ∀ n, space.score n ≠ none → n ∈ stored) {fuel : Nat}
    {walk : Walk α S} (hfuel : unseen stored walk.visited + walk.candidates.length ≤ fuel) :
    expand space (run space fuel walk).2 = none := by
  induction fuel generalizing walk with
  | zero =>
    have hnil : walk.candidates = [] := length_eq_zero_iff.mp (by omega)
    simp [run, expand, hnil, descending]
  | succ fuel ih =>
    cases he : expand space walk with
    | none => simp [run, he]
    | some r =>
      obtain ⟨c, walk'⟩ := r
      have hlt := unseen_expand hstored he
      simp only [run, he]
      exact ih (by omega)

theorem finishes_start (hstored : ∀ n, space.score n ≠ none → n ∈ stored) (entry : α) (sc : S)
    {fuel : Nat} (hfuel : stored.length + 1 ≤ fuel) :
    expand space (run space fuel (start space entry sc)).2 = none := by
  refine finishes hstored ?_
  have hle : unseen stored (start space entry sc).visited ≤ stored.length :=
    length_filter_le _ _
  have hone : (start space entry sc).candidates.length = 1 := rfl
  omega

end Stored

theorem Tidy.run {space : Space α S} {walk : Walk α S} (h : Tidy space walk) (fuel : Nat) :
    Tidy space (run space fuel walk).2 := by
  induction fuel generalizing walk with
  | zero => exact h
  | succ fuel ih =>
    cases he : BestFirst.expand space walk with
    | none => simpa [BestFirst.run, he] using h
    | some r =>
      simp only [BestFirst.run, he]
      exact ih (h.expand he)

/-! ## What is expanded -/

theorem mem_candidates_visit {space : Space α S} {n : α} {p : α × S}
    (hp : p ∈ (visit space walk n).candidates) : p ∈ walk.candidates ∨ p.1 ∉ walk.visited := by
  rcases visit_cases space walk n with ⟨-, e⟩ | ⟨-, e, -⟩ | ⟨hn, sc, -, e⟩
  · rw [e] at hp
    exact Or.inl hp
  · rw [e] at hp
    exact Or.inl hp
  · rw [e] at hp
    rcases mem_append.mp hp with hp | hp
    · exact Or.inl hp
    · rw [mem_singleton.mp hp]
      exact Or.inr hn

theorem mem_candidates_foldl {space : Space α S} {l : List α} {p : α × S}
    (hp : p ∈ (l.foldl (visit space) walk).candidates) :
    p ∈ walk.candidates ∨ p.1 ∉ walk.visited := by
  induction l generalizing walk with
  | nil => exact Or.inl hp
  | cons n l ih =>
    rcases ih hp with hp | hp
    · exact mem_candidates_visit hp
    · exact Or.inr fun hv => hp (mem_visited_visit.mpr (Or.inr hv))

/-- What a pass does to a walk: its node was a candidate and never becomes one again. -/
theorem Tidy.expand_node {space : Space α S} {c : α} (h : Tidy space walk)
    (he : BestFirst.expand space walk = some (c, walk')) :
    (∃ p ∈ walk.candidates, p.1 = c) ∧ (∀ n ∈ walk.visited, n ∈ walk'.visited) ∧
      ∀ p ∈ walk'.candidates, p.1 ≠ c ∧ (p ∈ walk.candidates ∨ p.1 ∉ walk.visited) := by
  obtain ⟨sc, rest, hperm, rfl⟩ := expand_cases he
  obtain ⟨-, hseen, hother⟩ := h.take hperm
  refine ⟨⟨(c, sc), hperm.mem_iff.mp mem_cons_self, rfl⟩,
    fun n hn => mem_visited_foldl.mpr (Or.inr hn), fun p hp => ?_⟩
  rcases mem_candidates_foldl hp with hp | hp
  · exact ⟨hother p hp, Or.inl (hperm.mem_iff.mp (mem_cons_of_mem _ hp))⟩
  · exact ⟨fun e => hp (e ▸ hseen), Or.inr hp⟩

/-- A node that was seen and is no candidate is not expanded. -/
theorem Tidy.expanded_fresh {space : Space α S} {fuel : Nat} (h : Tidy space walk) {n : α}
    (hn : n ∈ walk.visited) (hc : ∀ p ∈ walk.candidates, p.1 ≠ n) :
    n ∉ (BestFirst.run space fuel walk).1 := by
  induction fuel generalizing walk with
  | zero => exact not_mem_nil
  | succ fuel ih =>
    cases he : BestFirst.expand space walk with
    | none => simp [BestFirst.run, he]
    | some r =>
      obtain ⟨c, walk'⟩ := r
      obtain ⟨⟨p, hp, hpc⟩, hgrow, hcand⟩ := h.expand_node he
      simp only [BestFirst.run, he, mem_cons, not_or]
      refine ⟨fun e => hc p hp (hpc.trans e.symm), ih (h.expand he) (hgrow n hn) fun q hq e => ?_⟩
      rcases (hcand q hq).2 with hq' | hq'
      · exact hc q hq' e
      · exact hq' (e ▸ hn)

/-- Each node is expanded at most once, and only nodes with a score are. -/
theorem Tidy.expanded {space : Space α S} (h : Tidy space walk) (fuel : Nat) :
    (BestFirst.run space fuel walk).1.Nodup ∧
      ∀ n ∈ (BestFirst.run space fuel walk).1, space.score n ≠ none := by
  induction fuel generalizing walk with
  | zero => simp [BestFirst.run]
  | succ fuel ih =>
    cases he : BestFirst.expand space walk with
    | none => simp [BestFirst.run, he]
    | some r =>
      obtain ⟨c, walk'⟩ := r
      obtain ⟨⟨p, hp, rfl⟩, hgrow, hcand⟩ := h.expand_node he
      obtain ⟨hseen, hscore⟩ := h.candidates_seen p hp
      obtain ⟨hnodup, hall⟩ := ih (h.expand he)
      simp only [BestFirst.run, he]
      refine ⟨nodup_cons.mpr ⟨?_, hnodup⟩, fun n hn => ?_⟩
      · exact (h.expand he).expanded_fresh (hgrow _ hseen) fun q hq => (hcand q hq).1
      · rcases mem_cons.mp hn with rfl | hn
        · simp [hscore]
        · exact hall n hn

/-! ## What is kept -/

/-- One node leads to the other. -/
def Reaches (space : Space α S) : α → α → Prop :=
  Relation.ReflTransGen fun a b => b ∈ space.next a

/-- Every node seen can be reached from the entry. -/
def Sound (space : Space α S) (entry : α) (walk : Walk α S) : Prop :=
  ∀ n ∈ walk.visited, Reaches space entry n

theorem Sound.expand {space : Space α S} {entry : α} {c : α} (hs : Sound space entry walk)
    (h : Tidy space walk) (he : expand space walk = some (c, walk')) : Sound space entry walk' := by
  obtain ⟨sc, rest, hperm, rfl⟩ := expand_cases he
  obtain ⟨-, hseen, -⟩ := h.take hperm
  intro n hn
  rcases mem_visited_foldl.mp hn with hn | hn
  · exact (hs c hseen).tail hn
  · exact hs n hn

theorem Sound.run {space : Space α S} {entry : α} {fuel : Nat} {walk : Walk α S}
    (hs : Sound space entry walk) (h : Tidy space walk) :
    Sound space entry (run space fuel walk).2 := by
  induction fuel generalizing walk with
  | zero => exact hs
  | succ fuel ih =>
    cases he : BestFirst.expand space walk with
    | none => simpa [BestFirst.run, he] using hs
    | some r =>
      simp only [BestFirst.run, he]
      exact ih (hs.expand h he) (h.expand he)

/-- The nodes seen, less some that are being expanded, are candidates or lead to nodes seen only;
those admitted are kept. -/
structure Explored (space : Space α S) (pending : List α) (walk : Walk α S) : Prop where
  explored : ∀ n ∈ walk.visited, n ∈ pending ∨ n ∈ walk.candidates.map Prod.fst ∨
    ∀ b ∈ space.next n, b ∈ walk.visited
  keeps : ∀ n ∈ walk.visited, space.admits n = true → n ∈ walk.kept.map Prod.fst

section Wide

variable {space : Space α S} {stored : List α}

variable {walk : Walk α S}

omit [DecidableEq α] [LinearOrder S] in
/-- A search that may keep every node has room for one that it has not seen. -/
theorem Tidy.room (h : Tidy space walk) (hstored : ∀ n, space.score n ≠ none → n ∈ stored)
    (hwide : stored.length ≤ space.width) {n : α} (hn : n ∉ walk.visited)
    (hsc : space.score n ≠ none) : walk.kept.length < space.width := by
  have hnodup : (n :: walk.kept.map Prod.fst).Nodup := by
    refine nodup_cons.mpr ⟨fun hmem => ?_, h.kept_nodup⟩
    obtain ⟨p, hp, rfl⟩ := mem_map.mp hmem
    exact hn (h.kept_seen p hp).1
  have hsub : n :: walk.kept.map Prod.fst ⊆ stored := by
    intro a ha
    rcases mem_cons.mp ha with rfl | ha
    · exact hstored a hsc
    · obtain ⟨p, hp, rfl⟩ := mem_map.mp ha
      exact hstored _ (by simp [(h.kept_seen p hp).2])
  have hle := (hnodup.subperm hsub).length_le
  simp only [length_cons, length_map] at hle
  omega

theorem Explored.visit {pending : List α} {walk : Walk α S} (hx : Explored space pending walk)
    (h : Tidy space walk) (hstored : ∀ n, space.score n ≠ none → n ∈ stored)
    (hwide : stored.length ≤ space.width) {n : α} (hsc : space.score n ≠ none) :
    Explored space pending (visit space walk n) := by
  rcases visit_cases space walk n with ⟨-, e⟩ | ⟨hn, -, hfull⟩ | ⟨hn, sc, -, e⟩
  · rwa [e]
  · have hroom := h.room hstored hwide hn hsc
    rcases hfull with hnone | hfull
    · exact absurd hnone hsc
    · omega
  have hroom := h.room hstored hwide hn hsc
  have htrim : trim space.width (walk.kept ++ [(n, sc)]) = walk.kept ++ [(n, sc)] := by
    refine trim_of_le ?_
    rw [length_append, length_singleton]
    omega
  rw [e]
  constructor
  · intro a ha
    simp only [map_append, map_cons, map_nil, mem_append, mem_singleton]
    rcases mem_cons.mp ha with rfl | ha
    · exact Or.inr (Or.inl (Or.inr rfl))
    · rcases hx.explored a ha with hp | hc | hnext
      · exact Or.inl hp
      · exact Or.inr (Or.inl (Or.inl hc))
      · exact Or.inr (Or.inr fun b hb => mem_cons_of_mem _ (hnext b hb))
  · intro a ha hadm
    simp only [htrim]
    rcases mem_cons.mp ha with rfl | ha
    · rw [if_pos hadm, map_append]
      exact mem_append_right _ mem_cons_self
    · have hk := hx.keeps a ha hadm
      split
      · rw [map_append]
        exact mem_append_left _ hk
      · exact hk

theorem Explored.foldl {pending : List α} (hx : Explored space pending walk) (h : Tidy space walk)
    (hstored : ∀ n, space.score n ≠ none → n ∈ stored) (hwide : stored.length ≤ space.width)
    {l : List α} (hsc : ∀ n ∈ l, space.score n ≠ none) :
    Explored space pending (l.foldl (BestFirst.visit space) walk) := by
  induction l generalizing walk with
  | nil => exact hx
  | cons n l ih =>
    exact ih (hx.visit h hstored hwide (hsc n mem_cons_self)) (h.visit n)
      fun a ha => hsc a (mem_cons_of_mem _ ha)

theorem Explored.expand {c : α} (hx : Explored space [] walk) (h : Tidy space walk)
    (hstored : ∀ n, space.score n ≠ none → n ∈ stored)
    (hclosed : ∀ a, ∀ b ∈ space.next a, space.score b ≠ none)
    (hwide : stored.length ≤ space.width) (he : expand space walk = some (c, walk')) :
    Explored space [] walk' := by
  obtain ⟨sc, rest, hperm, rfl⟩ := expand_cases he
  obtain ⟨htidy, -, -⟩ := h.take hperm
  -- the node taken out is pending until its neighbours have all been seen
  have hpending : Explored space [c] { walk with candidates := rest } := by
    refine ⟨fun n hn => ?_, hx.keeps⟩
    rcases hx.explored n hn with hp | hc | hnext
    · exact absurd hp not_mem_nil
    · rw [← (hperm.map Prod.fst).mem_iff, map_cons, mem_cons] at hc
      rcases hc with rfl | hc
      · exact Or.inl mem_cons_self
      · exact Or.inr (Or.inl hc)
    · exact Or.inr (Or.inr hnext)
  have hfold := hpending.foldl htidy hstored hwide (hclosed c)
  refine ⟨fun n hn => ?_, hfold.keeps⟩
  rcases hfold.explored n hn with hp | hc | hnext
  · rw [mem_singleton.mp hp]
    exact Or.inr (Or.inr fun b hb => mem_visited_foldl.mpr (Or.inl hb))
  · exact Or.inr (Or.inl hc)
  · exact Or.inr (Or.inr hnext)

theorem Explored.run {walk : Walk α S} (hx : Explored space [] walk)
    (h : Tidy space walk) (hstored : ∀ n, space.score n ≠ none → n ∈ stored)
    (hclosed : ∀ a, ∀ b ∈ space.next a, space.score b ≠ none)
    (hwide : stored.length ≤ space.width) (fuel : Nat) : Explored space [] (run space fuel walk).2 := by
  induction fuel generalizing walk with
  | zero => exact hx
  | succ fuel ih =>
    cases he : BestFirst.expand space walk with
    | none => simpa [BestFirst.run, he] using hx
    | some r =>
      simp only [BestFirst.run, he]
      exact ih (hx.expand h hstored hclosed hwide he) (h.expand he)

theorem Tidy.visited_run {fuel : Nat} (h : Tidy space walk) {n : α} (hn : n ∈ walk.visited) :
    n ∈ (BestFirst.run space fuel walk).2.visited := by
  induction fuel generalizing walk with
  | zero => exact hn
  | succ fuel ih =>
    cases he : BestFirst.expand space walk with
    | none => simpa [BestFirst.run, he] using hn
    | some r =>
      simp only [BestFirst.run, he]
      exact ih (h.expand he) ((h.expand_node he).2.1 n hn)

omit [DecidableEq α] [LinearOrder S] in
theorem Explored.closed {walk : Walk α S} (hx : Explored space [] walk)
    (hnil : walk.candidates = []) {entry n : α} (hentry : entry ∈ walk.visited)
    (hreach : Reaches space entry n) : n ∈ walk.visited := by
  induction hreach with
  | refl => exact hentry
  | tail _ hstep ih =>
    rcases hx.explored _ ih with hp | hc | hnext
    · exact absurd hp not_mem_nil
    · rw [hnil] at hc
      exact absurd hc not_mem_nil
    · exact hnext _ hstep

omit [DecidableEq α] [LinearOrder S] in
/-- Distinct kept nodes as many as there are stored ones are all of them. -/
theorem Tidy.full (h : Tidy space walk) (hstored : ∀ n, space.score n ≠ none → n ∈ stored)
    (hlen : stored.length ≤ walk.kept.length) {n : α} (hn : n ∈ stored) :
    n ∈ walk.kept.map Prod.fst := by
  have hsub : walk.kept.map Prod.fst ⊆ stored := by
    intro a ha
    obtain ⟨p, hp, rfl⟩ := mem_map.mp ha
    exact hstored _ (by simp [(h.kept_seen p hp).2])
  have hperm := (h.kept_nodup.subperm hsub).perm_of_length_le (by simpa using hlen)
  exact hperm.mem_iff.mpr hn

omit [DecidableEq α] [LinearOrder S] in
theorem explored_start {entry : α} {sc : S} :
    Explored space [] (start space entry sc) := by
  constructor
  · intro n hn
    exact Or.inr (Or.inl (by simpa [start] using hn))
  · intro n hn hadm
    rw [mem_singleton.mp hn] at hadm ⊢
    simp [start, hadm]

/-- A search that may keep every node keeps the admitted ones it can reach, and no other. -/
theorem mem_kept_iff (hstored : ∀ n, space.score n ≠ none → n ∈ stored)
    (hclosed : ∀ a, ∀ b ∈ space.next a, space.score b ≠ none)
    (hwide : stored.length ≤ space.width) {entry : α} {sc : S}
    (hsc : space.score entry = some sc) {fuel : Nat} (hfuel : stored.length + 1 ≤ fuel) {n : α} :
    n ∈ (run space fuel (start space entry sc)).2.kept.map Prod.fst ↔
      space.admits n = true ∧ Reaches space entry n := by
  have hentry : entry ∈ stored := hstored entry (by simp [hsc])
  have hpos : 0 < space.width := (length_pos_of_mem hentry).trans_le hwide
  have htidy := tidy_start hsc hpos
  have hend := htidy.run fuel
  have hsound : Sound space entry (run space fuel (start space entry sc)).2 := by
    refine Sound.run (fun n hn => ?_) htidy
    rw [mem_singleton.mp hn]
    exact Relation.ReflTransGen.refl
  have hexplored := explored_start.run htidy hstored hclosed hwide fuel
  constructor
  · intro hn
    obtain ⟨p, hp, rfl⟩ := mem_map.mp hn
    exact ⟨hend.kept_admitted p hp, hsound _ (hend.kept_seen p hp).1⟩
  · rintro ⟨hadm, hreach⟩
    rcases expand_none (finishes_start hstored entry sc hfuel) with hnil | hfull
    · -- no candidate is left, so what was seen is closed under neighbours
      refine hexplored.keeps n (hexplored.closed hnil ?_ hreach) hadm
      exact htidy.visited_run (mem_singleton.mpr rfl)
    · -- the search is full, so it keeps every node there is
      refine hend.full hstored (hwide.trans hfull) (hstored n ?_)
      rcases Relation.ReflTransGen.cases_tail hreach with rfl | ⟨a, -, hstep⟩
      · simp [hsc]
      · exact hclosed a n hstep

end Wide

end ContextDesk.Lib.BestFirst
