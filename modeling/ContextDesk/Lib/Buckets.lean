import Mathlib

/-!
# Sorting into buckets

`buckets key l` puts every element of `l` into the first bucket with its key, or into a new bucket
behind the others. `Bucketed key l groups` says what that gives: one bucket for each key, which
holds the elements of that key in the order of the list. The order of the buckets is not part of it
(`Bucketed.perm`), so it holds of a sorted list of buckets as well.
-/

namespace ContextDesk.Lib

open List

variable {α κ : Type} [DecidableEq κ]

def intoBucket (key : α → κ) : List (κ × List α) → α → List (κ × List α)
  | [], a => [(key a, [a])]
  | (k, bucket) :: groups, a =>
    if k = key a then (k, bucket ++ [a]) :: groups else (k, bucket) :: intoBucket key groups a

def buckets (key : α → κ) (l : List α) : List (κ × List α) := l.foldl (intoBucket key) []

/-- The elements with the key, in their order. -/
def withKey (key : α → κ) (l : List α) (k : κ) : List α := l.filter fun a => key a = k

structure Bucketed (key : α → κ) (l : List α) (groups : List (κ × List α)) : Prop where
  keys_nodup : (groups.map Prod.fst).Nodup
  mem_iff : ∀ g, g ∈ groups ↔ g.2 = withKey key l g.1 ∧ g.2 ≠ []

variable {key : α → κ}

theorem withKey_append (l : List α) (a : α) (k : κ) :
    withKey key (l ++ [a]) k = withKey key l k ++ if key a = k then [a] else [] := by
  unfold withKey
  rw [filter_append]
  by_cases h : key a = k <;> simp [h]

theorem intoBucket_keys (groups : List (κ × List α)) (a : α) :
    (intoBucket key groups a).map Prod.fst =
      if key a ∈ groups.map Prod.fst then groups.map Prod.fst
      else groups.map Prod.fst ++ [key a] := by
  induction groups with
  | nil => rfl
  | cons g groups ih =>
    obtain ⟨k, bucket⟩ := g
    rw [intoBucket]
    by_cases h : k = key a
    · simp [h]
    · rw [if_neg h, map_cons, ih, map_cons]
      by_cases hmem : key a ∈ groups.map Prod.fst
      · rw [if_pos hmem, if_pos (mem_cons_of_mem _ hmem)]
      · rw [if_neg hmem, if_neg (by simp [Ne.symm h, hmem]), cons_append]

/-- Only the bucket of the key changes. -/
theorem mem_intoBucket {groups : List (κ × List α)} (hn : (groups.map Prod.fst).Nodup) {a : α}
    {g : κ × List α} :
    g ∈ intoBucket key groups a ↔ (g ∈ groups ∧ g.1 ≠ key a) ∨
      (g.1 = key a ∧ ∃ bucket, g.2 = bucket ++ [a] ∧
        ((key a, bucket) ∈ groups ∨ (key a ∉ groups.map Prod.fst ∧ bucket = []))) := by
  induction groups with
  | nil =>
    rw [intoBucket, mem_singleton]
    constructor
    · rintro rfl
      exact .inr ⟨rfl, [], rfl, .inr ⟨not_mem_nil, rfl⟩⟩
    · rintro (⟨hg, -⟩ | ⟨hk, bucket, hb, hmem | ⟨-, rfl⟩⟩)
      · cases hg
      · cases hmem
      · exact Prod.ext hk hb
  | cons h groups ih =>
    obtain ⟨k, bucket⟩ := h
    rw [map_cons, nodup_cons] at hn
    obtain ⟨hk, hn⟩ := hn
    rw [intoBucket]
    by_cases heq : k = key a
    · rw [if_pos heq, mem_cons]
      subst heq
      have hother : ∀ h ∈ groups, h.1 ≠ key a := by
        intro h hmem hkey
        exact hk (mem_map.mpr ⟨h, hmem, hkey⟩)
      constructor
      · rintro (rfl | hmem)
        · exact .inr ⟨rfl, bucket, rfl, .inl mem_cons_self⟩
        · exact .inl ⟨mem_cons_of_mem _ hmem, hother g hmem⟩
      · rintro (⟨hmem, hne⟩ | ⟨hkey, b, hb, hmem | ⟨hnew, -⟩⟩)
        · rcases mem_cons.mp hmem with rfl | hmem
          · exact absurd rfl hne
          · exact .inr hmem
        · rcases mem_cons.mp hmem with hhead | hmem
          · obtain ⟨-, rfl⟩ := Prod.mk.inj hhead
            exact .inl (Prod.ext hkey hb)
          · exact absurd rfl (hother _ hmem)
        · exact absurd mem_cons_self hnew
    · rw [if_neg heq, mem_cons, ih hn]
      have hkeys : key a ∉ (k :: groups.map Prod.fst) ↔ key a ∉ groups.map Prod.fst := by
        rw [mem_cons, not_or]
        exact and_iff_right (Ne.symm heq)
      have hbuckets : ∀ b, (key a, b) ∈ (k, bucket) :: groups ↔ (key a, b) ∈ groups := by
        intro b
        rw [mem_cons]
        exact or_iff_right fun h => heq (Prod.mk.inj h).1.symm
      rw [map_cons, hkeys]
      simp only [hbuckets]
      constructor
      · rintro (rfl | ⟨hmem, hne⟩ | h)
        · exact .inl ⟨mem_cons_self, heq⟩
        · exact .inl ⟨mem_cons_of_mem _ hmem, hne⟩
        · exact .inr h
      · rintro (⟨hmem, hne⟩ | h)
        · rcases mem_cons.mp hmem with rfl | hmem
          · exact .inl rfl
          · exact .inr (.inl ⟨hmem, hne⟩)
        · exact .inr (.inr h)

/-- The keys in use are those of the elements. -/
theorem Bucketed.mem_keys {l : List α} {groups : List (κ × List α)} (h : Bucketed key l groups)
    {k : κ} : k ∈ groups.map Prod.fst ↔ ∃ a ∈ l, key a = k := by
  constructor
  · intro hk
    obtain ⟨g, hg, rfl⟩ := mem_map.mp hk
    obtain ⟨hb, hne⟩ := (h.mem_iff g).mp hg
    obtain ⟨a, ha⟩ := exists_mem_of_ne_nil _ hne
    rw [hb] at ha
    obtain ⟨hal, hkey⟩ := mem_filter.mp ha
    exact ⟨a, hal, of_decide_eq_true hkey⟩
  · rintro ⟨a, ha, rfl⟩
    have hmem : a ∈ withKey key l (key a) := mem_filter.mpr ⟨ha, decide_eq_true rfl⟩
    exact mem_map.mpr ⟨(key a, withKey key l (key a)),
      (h.mem_iff _).mpr ⟨rfl, ne_nil_of_mem hmem⟩, rfl⟩

theorem intoBucket_bucketed {l : List α} {groups : List (κ × List α)}
    (h : Bucketed key l groups) (a : α) : Bucketed key (l ++ [a]) (intoBucket key groups a) := by
  constructor
  case keys_nodup =>
    rw [intoBucket_keys]
    split
    · exact h.keys_nodup
    · rename_i hnew
      rw [nodup_append_comm, singleton_append, nodup_cons]
      exact ⟨hnew, h.keys_nodup⟩
  case mem_iff =>
    intro g
    obtain ⟨k, bucket⟩ := g
    rw [mem_intoBucket h.keys_nodup, withKey_append]
    by_cases hk : k = key a
    · subst hk
      simp only [ne_eq, not_true_eq_false, and_false, false_or, if_true, true_and]
      have hold : ∀ b, ((key a, b) ∈ groups ∨ (key a ∉ groups.map Prod.fst ∧ b = [])) ↔
          b = withKey key l (key a) := by
        intro b
        rw [h.mem_iff, h.mem_keys]
        constructor
        · rintro (⟨hb, -⟩ | ⟨hnew, rfl⟩)
          · exact hb
          · refine (filter_eq_nil_iff.mpr fun c hc hkey => hnew ?_).symm
            exact ⟨c, hc, of_decide_eq_true hkey⟩
        · rintro rfl
          by_cases hnil : withKey key l (key a) = []
          · refine .inr ⟨?_, hnil⟩
            rintro ⟨c, hc, hkey⟩
            exact filter_eq_nil_iff.mp hnil c hc (decide_eq_true hkey)
          · exact .inl ⟨rfl, hnil⟩
      simp only [hold]
      constructor
      · rintro ⟨b, rfl, rfl⟩
        exact ⟨rfl, by simp⟩
      · rintro ⟨rfl, -⟩
        exact ⟨_, rfl, rfl⟩
    · rw [if_neg (Ne.symm hk), append_nil, h.mem_iff]
      simp [hk]

theorem buckets_bucketed (key : α → κ) (l : List α) : Bucketed key l (buckets key l) := by
  have hstart : Bucketed key [] [] := by
    refine ⟨nodup_nil, fun g => ?_⟩
    simp [withKey]
  have hrun : ∀ (l done : List α) groups, Bucketed key done groups →
      Bucketed key (done ++ l) (l.foldl (intoBucket key) groups) := by
    intro l
    induction l with
    | nil => intro done groups h; simpa using h
    | cons a l ih =>
      intro done groups h
      rw [foldl_cons, append_cons]
      exact ih _ _ (intoBucket_bucketed h a)
  exact hrun l [] [] hstart

theorem Bucketed.perm {l : List α} {groups groups' : List (κ × List α)}
    (h : Bucketed key l groups) (hp : groups'.Perm groups) : Bucketed key l groups' := by
  refine ⟨(hp.map Prod.fst).nodup_iff.mpr h.keys_nodup, fun g => ?_⟩
  rw [hp.mem_iff, h.mem_iff]

section

variable {l : List α} {groups : List (κ × List α)} (h : Bucketed key l groups)

include h

/-- An element is in the bucket of its key and in no other. -/
theorem Bucketed.mem_bucket {g : κ × List α} (hg : g ∈ groups) {a : α} :
    a ∈ g.2 ↔ a ∈ l ∧ key a = g.1 := by
  rw [((h.mem_iff g).mp hg).1]
  simp [withKey]

theorem Bucketed.existsUnique {a : α} (ha : a ∈ l) : ∃! g, g ∈ groups ∧ a ∈ g.2 := by
  have hmem : a ∈ withKey key l (key a) := mem_filter.mpr ⟨ha, decide_eq_true rfl⟩
  refine ⟨(key a, withKey key l (key a)),
    ⟨(h.mem_iff _).mpr ⟨rfl, ne_nil_of_mem hmem⟩, hmem⟩, fun g ⟨hg, hag⟩ => ?_⟩
  obtain ⟨-, hkey⟩ := (h.mem_bucket hg).mp hag
  rw [hkey]
  exact Prod.ext rfl ((h.mem_iff g).mp hg).1

/-- Two elements are in one bucket when their keys are the same. -/
theorem Bucketed.together {a b : α} (ha : a ∈ l) (hb : b ∈ l) :
    (∃ g ∈ groups, a ∈ g.2 ∧ b ∈ g.2) ↔ key a = key b := by
  constructor
  · rintro ⟨g, hg, hag, hbg⟩
    exact ((h.mem_bucket hg).mp hag).2.trans ((h.mem_bucket hg).mp hbg).2.symm
  · intro hkey
    obtain ⟨g, ⟨hg, hag⟩, -⟩ := h.existsUnique ha
    have hka := ((h.mem_bucket hg).mp hag).2
    exact ⟨g, hg, hag, (h.mem_bucket hg).mpr ⟨hb, hkey.symm.trans hka⟩⟩

end

/-- No element is lost or put twice. -/
theorem intoBucket_perm (groups : List (κ × List α)) (a : α) :
    ((intoBucket key groups a).flatMap Prod.snd).Perm (groups.flatMap Prod.snd ++ [a]) := by
  induction groups with
  | nil => simp [intoBucket]
  | cons g groups ih =>
    obtain ⟨k, bucket⟩ := g
    rw [intoBucket]
    by_cases h : k = key a
    · rw [if_pos h, flatMap_cons, flatMap_cons, append_assoc, append_assoc]
      exact (perm_append_comm).append_left bucket
    · rw [if_neg h, flatMap_cons, flatMap_cons, append_assoc]
      exact ih.append_left bucket

theorem buckets_perm (key : α → κ) (l : List α) : ((buckets key l).flatMap Prod.snd).Perm l := by
  have hrun : ∀ (l : List α) groups,
      ((l.foldl (intoBucket key) groups).flatMap Prod.snd).Perm (groups.flatMap Prod.snd ++ l) := by
    intro l
    induction l with
    | nil => intro groups; simp
    | cons a l ih =>
      intro groups
      rw [foldl_cons, append_cons]
      exact (ih _).trans ((intoBucket_perm groups a).append_right l)
  exact hrun l []

end ContextDesk.Lib
