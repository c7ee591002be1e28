import Mathlib.Data.List.Basic
import Mathlib.Order.Lattice

/-!
# Labelled spans

A span is a half-open interval with a label. `mergeTouching` joins consecutive spans with one label
where one ends at the start of the next: what is covered, and with which label, stays (`merge_covers`),
and no two spans that touch have one label any more (`merge_maximal`).
-/

namespace ContextDesk.Lib.Spans

open List

structure Span (T γ : Type) where
  start : T
  stop : T
  label : γ

variable {T γ : Type} [LinearOrder T]

def Span.Covers (s : Span T γ) (t : T) : Prop := s.start ≤ t ∧ t < s.stop

/-- Spans that are not empty, one after the other. -/
def Consecutive (l : List (Span T γ)) : Prop :=
  (∀ s ∈ l, s.start < s.stop) ∧ l.Pairwise fun a b => a.stop ≤ b.start

/-- The next span continues this one. -/
def Joins (a b : Span T γ) : Prop := a.stop = b.start ∧ a.label = b.label

instance [DecidableEq γ] (a b : Span T γ) : Decidable (Joins a b) :=
  inferInstanceAs (Decidable (_ ∧ _))

variable [DecidableEq γ]

/-- `last` may still grow. -/
def mergeFrom (last : Span T γ) : List (Span T γ) → List (Span T γ)
  | [] => [last]
  | s :: l =>
    if Joins last s then mergeFrom { last with stop := s.stop } l else last :: mergeFrom s l

def mergeTouching : List (Span T γ) → List (Span T γ)
  | [] => []
  | s :: l => mergeFrom s l

omit [DecidableEq γ] in
theorem Consecutive.tail {s : Span T γ} {l : List (Span T γ)} (h : Consecutive (s :: l)) :
    Consecutive l :=
  ⟨fun a ha => h.1 a (mem_cons_of_mem _ ha), (pairwise_cons.mp h.2).2⟩

omit [DecidableEq γ] in
/-- Two spans that join are one span. -/
theorem Consecutive.join {a s : Span T γ} {l : List (Span T γ)} (h : Consecutive (a :: s :: l))
    (hjoins : Joins a s) : Consecutive ({ a with stop := s.stop } :: l) := by
  have ha := h.1 a mem_cons_self
  have hs := h.1 s (mem_cons_of_mem _ mem_cons_self)
  refine ⟨fun b hb => ?_, pairwise_cons.mpr ⟨?_, h.tail.tail.2⟩⟩
  · rcases mem_cons.mp hb with rfl | hb
    · exact lt_trans ha (hjoins.1 ▸ hs)
    · exact h.tail.tail.1 b hb
  · exact (pairwise_cons.mp h.tail.2).1

theorem mergeFrom_covers {a : Span T γ} {l : List (Span T γ)} (h : Consecutive (a :: l)) {t : T}
    {c : γ} : (∃ s ∈ mergeFrom a l, s.Covers t ∧ s.label = c) ↔
      ∃ s ∈ a :: l, s.Covers t ∧ s.label = c := by
  induction l generalizing a with
  | nil => rfl
  | cons s l ih =>
    rw [mergeFrom]
    split
    · next hjoins =>
      rw [ih (h.join hjoins)]
      have ha := h.1 a mem_cons_self
      have hs := h.1 s (mem_cons_of_mem _ mem_cons_self)
      obtain ⟨htouch, hlabel⟩ := hjoins
      have hcovers : (⟨a.start, s.stop, a.label⟩ : Span T γ).Covers t ↔ a.Covers t ∨ s.Covers t := by
        constructor
        · rintro ⟨hstart, hstop⟩
          rcases lt_or_ge t a.stop with hlt | hge
          · exact .inl ⟨hstart, hlt⟩
          · exact .inr ⟨htouch ▸ hge, hstop⟩
        · rintro (⟨hstart, hstop⟩ | ⟨hstart, hstop⟩)
          · exact ⟨hstart, lt_trans hstop (htouch ▸ hs)⟩
          · exact ⟨le_trans (le_of_lt ha) (htouch ▸ hstart), hstop⟩
      simp only [mem_cons, exists_eq_or_imp, hcovers]
      rw [← hlabel, or_and_right, or_assoc]
    · have htail := ih h.tail
      simp only [mem_cons, exists_eq_or_imp] at htail ⊢
      rw [htail]

/-- Merging moves no span apart from its end. -/
theorem mergeFrom_consecutive {a : Span T γ} {l : List (Span T γ)} (h : Consecutive (a :: l)) :
    Consecutive (mergeFrom a l) ∧ ∀ s ∈ mergeFrom a l, a.start ≤ s.start := by
  induction l generalizing a with
  | nil => exact ⟨h, fun s hs => le_of_eq (congrArg Span.start (mem_singleton.mp hs)).symm⟩
  | cons s l ih =>
    rw [mergeFrom]
    split
    · next hjoins => exact ih (h.join hjoins)
    · obtain ⟨hconsecutive, hstarts⟩ := ih h.tail
      have hnext : a.stop ≤ s.start := (pairwise_cons.mp h.2).1 s mem_cons_self
      have ha := h.1 a mem_cons_self
      refine ⟨⟨fun b hb => ?_, pairwise_cons.mpr ⟨fun b hb => ?_, hconsecutive.2⟩⟩,
        fun b hb => ?_⟩
      · rcases mem_cons.mp hb with rfl | hb
        · exact ha
        · exact hconsecutive.1 b hb
      · exact le_trans hnext (hstarts b hb)
      · rcases mem_cons.mp hb with rfl | hb
        · exact le_refl _
        · exact le_trans (le_trans (le_of_lt ha) hnext) (hstarts b hb)

/-- Only the first of the merged spans starts where `a` does, and no later one joins it. -/
theorem mergeFrom_maximal {a : Span T γ} {l : List (Span T γ)} (h : Consecutive (a :: l)) :
    (mergeFrom a l).Pairwise (fun x y => ¬ Joins x y) ∧
      ∃ b rest, mergeFrom a l = b :: rest ∧ b.start = a.start ∧ b.label = a.label := by
  induction l generalizing a with
  | nil => exact ⟨pairwise_singleton _ _, a, [], rfl, rfl, rfl⟩
  | cons s l ih =>
    rw [mergeFrom]
    split
    · next hjoins => exact ih (h.join hjoins)
    · next hapart =>
      obtain ⟨hpairs, b, rest, hmerged, hstart, hlabel⟩ := ih h.tail
      refine ⟨pairwise_cons.mpr ⟨fun c hc hjoins => ?_, hpairs⟩, a, _, rfl, rfl, rfl⟩
      have hconsecutive := (mergeFrom_consecutive h.tail).1
      rw [hmerged] at hc hconsecutive
      rcases mem_cons.mp hc with rfl | hc
      · exact hapart ⟨hjoins.1.trans hstart, hjoins.2.trans hlabel⟩
      · -- a later span starts behind the first one, which starts at the earliest where `a` ends
        have hb := hconsecutive.1 b mem_cons_self
        have hlater := (pairwise_cons.mp hconsecutive.2).1 c hc
        have hnext : a.stop ≤ s.start := (pairwise_cons.mp h.2).1 s mem_cons_self
        have hlt : a.stop < c.start := lt_of_le_of_lt (hstart ▸ hnext) (lt_of_lt_of_le hb hlater)
        exact absurd hjoins.1 (ne_of_lt hlt)

variable {l : List (Span T γ)}

theorem merge_covers (h : Consecutive l) {t : T} {c : γ} :
    (∃ s ∈ mergeTouching l, s.Covers t ∧ s.label = c) ↔ ∃ s ∈ l, s.Covers t ∧ s.label = c := by
  cases l with
  | nil => rfl
  | cons s l => exact mergeFrom_covers h

theorem merge_consecutive (h : Consecutive l) : Consecutive (mergeTouching l) := by
  cases l with
  | nil => exact h
  | cons s l => exact (mergeFrom_consecutive h).1

theorem merge_maximal (h : Consecutive l) {a b : Span T γ} (ha : a ∈ mergeTouching l)
    (hb : b ∈ mergeTouching l) : ¬ Joins a b := by
  cases l with
  | nil => exact absurd ha not_mem_nil
  | cons s l =>
    have hpairs := (mergeFrom_maximal h).1
    have hconsecutive := (mergeFrom_consecutive h).1
    intro hjoins
    change b ∈ mergeFrom s l at hb
    -- `b` starts where `a` ends, so it comes after `a`
    obtain ⟨before, after, hsplit⟩ := append_of_mem ha
    rw [show mergeFrom s l = before ++ a :: after from hsplit] at hb hpairs hconsecutive
    obtain ⟨-, hcons, hcross⟩ := pairwise_append.mp hconsecutive.2
    have hnonempty : ∀ x ∈ before ++ a :: after, x.start < x.stop := hconsecutive.1
    rcases mem_append.mp hb with hbefore | hb'
    · have hle := hcross b hbefore a mem_cons_self
      have hblt := hnonempty b (mem_append_left _ hbefore)
      have halt := hnonempty a (mem_append_right _ mem_cons_self)
      rw [hjoins.1] at halt
      exact absurd (lt_of_lt_of_le hblt hle) (lt_asymm halt)
    · rcases mem_cons.mp hb' with rfl | hafter
      · exact absurd hjoins.1 (ne_of_gt (hnonempty b (mem_append_right _ mem_cons_self)))
      · have hrest := (pairwise_append.mp hpairs).2.1
        exact (pairwise_cons.mp hrest).1 b hafter hjoins

end ContextDesk.Lib.Spans
