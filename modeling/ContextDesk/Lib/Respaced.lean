import Mathlib.Data.List.Infix
import Mathlib.Data.List.TakeWhile

/-!
# Lists up to their separators

`Respaced sep fill x y`: in `y` every separator of `x` has become a run of one or more, each the
separator itself or one of `fill`. Words, trimmed lists and what stands between two words are the
same in both but for the separators: a part of `y` around one separator is a part of `x` around one
(`Respaced.around`).
-/

open List

namespace ContextDesk.Lib

variable {α : Type} {sep : α → Bool} {fill : α → Prop}

inductive Respaced (sep : α → Bool) (fill : α → Prop) : List α → List α → Prop
  | nil : Respaced sep fill [] []
  | keep {c : α} {x y : List α} (hc : sep c = false) (h : Respaced sep fill x y) :
    Respaced sep fill (c :: x) (c :: y)
  | space {c : α} {x y run : List α} (hc : sep c = true) (hne : run ≠ [])
      (hrun : ∀ d ∈ run, sep d = true ∧ (d = c ∨ fill d)) (h : Respaced sep fill x y) :
    Respaced sep fill (c :: x) (run ++ y)

/-- The parts between separators that are not empty. -/
def words [DecidableEq α] (sep : α → Bool) (l : List α) : List (List α) :=
  (l.splitOnP sep).filter (· ≠ [])

/-- A list without the separators around it. -/
def stripped (sep : α → Bool) (l : List α) : List α :=
  ((l.dropWhile sep).reverse.dropWhile sep).reverse

namespace Respaced

variable {x x' y y' : List α}

theorem append (h : Respaced sep fill x y) (h' : Respaced sep fill x' y') :
    Respaced sep fill (x ++ x') (y ++ y') := by
  induction h with
  | nil => exact h'
  | keep hc _ ih => exact .keep hc ih
  | space hc hne hrun _ ih =>
    rw [append_assoc]
    exact .space hc hne hrun ih

theorem reverse (h : Respaced sep fill x y) : Respaced sep fill x.reverse y.reverse := by
  induction h with
  | nil => exact .nil
  | keep hc _ ih =>
    rw [reverse_cons, reverse_cons]
    exact ih.append (.keep hc .nil)
  | @space c x y run hc hne hrun _ ih =>
    rw [reverse_cons, reverse_append]
    have hback : Respaced sep fill [c] (run.reverse ++ []) := .space hc
      (fun h => hne (reverse_eq_nil_iff.mp h))
      (fun d hd => hrun d (mem_reverse.mp hd)) .nil
    rw [append_nil] at hback
    exact ih.append hback

theorem dropWhile (h : Respaced sep fill x y) :
    Respaced sep fill (x.dropWhile sep) (y.dropWhile sep) := by
  induction h with
  | nil => exact .nil
  | @keep c x y hc h _ =>
    rw [dropWhile_cons_of_neg (by rw [hc]; exact Bool.false_ne_true),
      dropWhile_cons_of_neg (by rw [hc]; exact Bool.false_ne_true)]
    exact .keep hc h
  | space hc _ hrun _ ih =>
    rw [dropWhile_cons_of_pos hc, dropWhile_append_of_pos fun d hd => (hrun d hd).1]
    exact ih

theorem stripped (h : Respaced sep fill x y) :
    Respaced sep fill (Lib.stripped sep x) (Lib.stripped sep y) :=
  h.dropWhile.reverse.dropWhile.reverse

theorem refl (l : List α) : Respaced sep fill l l := by
  induction l with
  | nil => exact .nil
  | cons c l ih =>
    cases hc : sep c with
    | false => exact .keep hc ih
    | true =>
      have hrun : ∀ d ∈ [c], sep d = true ∧ (d = c ∨ fill d) := by
        intro d hd
        rw [mem_singleton.mp hd]
        exact ⟨hc, Or.inl rfl⟩
      exact .space hc (cons_ne_nil c []) hrun ih

theorem eq_nil_iff (h : Respaced sep fill x y) : y = [] ↔ x = [] := by
  cases h with
  | nil => exact Iff.rfl
  | keep => simp
  | space hc hne => simp [hne]

/-- Without separators nothing changes. -/
theorem eq_of_free (h : Respaced sep fill x y) (hfree : ∀ c ∈ x, sep c = false) : y = x := by
  induction h with
  | nil => rfl
  | keep _ _ ih => rw [ih fun c hc => hfree c (mem_cons_of_mem _ hc)]
  | space hc =>
    rw [hfree _ mem_cons_self] at hc
    cases hc

theorem mem_of_mem (h : Respaced sep fill x y) {c : α} (hc : sep c = false) (hmem : c ∈ y) :
    c ∈ x := by
  induction h with
  | nil => exact hmem
  | keep _ _ ih =>
    rcases mem_cons.mp hmem with rfl | hmem
    · exact mem_cons_self
    · exact mem_cons_of_mem _ (ih hmem)
  | space _ _ hrun _ ih =>
    rcases mem_append.mp hmem with hmem | hmem
    · rw [(hrun c hmem).1] at hc
      cases hc
    · exact mem_cons_of_mem _ (ih hmem)

/-- The respacing of a list in two parts has the two parts respaced. -/
theorem of_append {front back : List α} (h : Respaced sep fill (front ++ back) y) :
    ∃ front' back', y = front' ++ back' ∧ Respaced sep fill front front' ∧
      Respaced sep fill back back' := by
  induction front generalizing y with
  | nil => exact ⟨[], y, rfl, .nil, h⟩
  | cons c front ih =>
    rw [cons_append] at h
    cases h with
    | keep hc h =>
      obtain ⟨front', back', rfl, hfront, hback⟩ := ih h
      exact ⟨c :: front', back', rfl, .keep hc hfront, hback⟩
    | space hc hne hrun h =>
      obtain ⟨front', back', rfl, hfront, hback⟩ := ih h
      exact ⟨_, back', (append_assoc _ _ _).symm, .space hc hne hrun hfront, hback⟩

/-- Every separator made the same one. -/
theorem single {s : α} (hs : sep s = true) (hfill : fill s) (l : List α) :
    Respaced sep fill l (l.map fun c => if sep c then s else c) := by
  induction l with
  | nil => exact .nil
  | cons c l ih =>
    rw [map_cons]
    cases hc : sep c with
    | false => exact .keep hc ih
    | true =>
      have hrun : ∀ d ∈ [s], sep d = true ∧ (d = c ∨ fill d) := by
        intro d hd
        rw [mem_singleton.mp hd]
        exact ⟨hs, Or.inr hfill⟩
      exact .space hc (cons_ne_nil s []) hrun ih

/-! ## Parts -/

variable {a b : List α} {d : α}

theorem begin_of_begin (h : Respaced sep fill x y) (hfree : ∀ c ∈ a, sep c = false)
    (ha : a <+: y) : a <+: x := by
  induction a generalizing x y with
  | nil => exact List.nil_prefix
  | cons e a ih =>
    have he := hfree e mem_cons_self
    cases h with
    | nil => cases prefix_nil.mp ha
    | keep hc h =>
      obtain ⟨rfl, htail⟩ := cons_prefix_cons.mp ha
      exact cons_prefix_cons.mpr
        ⟨rfl, ih h (fun c hc => hfree c (mem_cons_of_mem _ hc)) htail⟩
    | @space c x y run hc hne hrun h =>
      obtain ⟨r, run, rfl⟩ := exists_cons_of_ne_nil hne
      obtain ⟨rfl, -⟩ := cons_prefix_cons.mp ha
      rw [(hrun e mem_cons_self).1] at he
      cases he

theorem prefix_around (h : Respaced sep fill x y) (ha : ∀ c ∈ a, sep c = false)
    (hb : ∀ c ∈ b, sep c = false) (hd : sep d = true) (hbegins : a ++ d :: b <+: y) :
    ∃ w, sep w = true ∧ a ++ w :: b <+: x := by
  induction a generalizing x y with
  | nil =>
    rw [nil_append] at hbegins
    cases h with
    | nil => cases prefix_nil.mp hbegins
    | keep hc h =>
      obtain ⟨rfl, -⟩ := cons_prefix_cons.mp hbegins
      rw [hc] at hd
      cases hd
    | @space c x y run hc hne hrun h =>
      obtain ⟨r, run, rfl⟩ := exists_cons_of_ne_nil hne
      obtain ⟨rfl, hrest⟩ := cons_prefix_cons.mp hbegins
      refine ⟨c, hc, cons_prefix_cons.mpr ⟨rfl, ?_⟩⟩
      rcases b with _ | ⟨e, b⟩
      · exact List.nil_prefix
      · -- the run ends where `b` begins
        rcases run with _ | ⟨r, run⟩
        · exact h.begin_of_begin hb hrest
        · obtain ⟨rfl, -⟩ := cons_prefix_cons.mp hrest
          have he := hb e mem_cons_self
          rw [(hrun e (mem_cons_of_mem _ mem_cons_self)).1] at he
          cases he
  | cons e a ih =>
    have he := ha e mem_cons_self
    cases h with
    | nil => cases prefix_nil.mp hbegins
    | keep hc h =>
      obtain ⟨rfl, htail⟩ := cons_prefix_cons.mp hbegins
      obtain ⟨w, hw, hx⟩ := ih h (fun c hc => ha c (mem_cons_of_mem _ hc)) htail
      exact ⟨w, hw, cons_prefix_cons.mpr ⟨rfl, hx⟩⟩
    | @space c x y run hc hne hrun h =>
      obtain ⟨r, run, rfl⟩ := exists_cons_of_ne_nil hne
      obtain ⟨rfl, -⟩ := cons_prefix_cons.mp hbegins
      rw [(hrun e mem_cons_self).1] at he
      cases he

/-- What begins with no separator does not begin in a run of them. -/
theorem infix_append_run {run : List α} {e : α} {l : List α} (hrun : ∀ d ∈ run, sep d = true)
    (he : sep e = false) (h : e :: l <:+: run ++ y) : e :: l <:+: y := by
  induction run with
  | nil => exact h
  | cons r run ih =>
    rcases infix_cons_iff.mp h with h | h
    · obtain ⟨rfl, -⟩ := cons_prefix_cons.mp h
      rw [hrun e mem_cons_self] at he
      cases he
    · exact ih (fun d hd => hrun d (mem_cons_of_mem _ hd)) h

/-- Two words around one separator stand around one in the list before. -/
theorem around (h : Respaced sep fill x y) (hne : a ≠ []) (ha : ∀ c ∈ a, sep c = false)
    (hb : ∀ c ∈ b, sep c = false) (hd : sep d = true) (hwithin : a ++ d :: b <:+: y) :
    ∃ w, sep w = true ∧ a ++ w :: b <:+: x := by
  obtain ⟨e, a, rfl⟩ := exists_cons_of_ne_nil hne
  have he := ha e mem_cons_self
  induction h with
  | nil => cases infix_nil.mp hwithin
  | keep hc h ih =>
    rcases infix_cons_iff.mp hwithin with hbegins | hwithin
    · obtain ⟨w, hw, hx⟩ := (Respaced.keep hc h).prefix_around ha hb hd hbegins
      exact ⟨w, hw, hx.isInfix⟩
    · obtain ⟨w, hw, hx⟩ := ih hwithin
      exact ⟨w, hw, infix_cons hx⟩
  | space _ _ hrun _ ih =>
    obtain ⟨w, hw, hx⟩ := ih (infix_append_run (fun d hd => (hrun d hd).1) he hwithin)
    exact ⟨w, hw, infix_cons hx⟩

/-- A part without separators stays. -/
theorem part_to_part (h : Respaced sep fill x y) (hfree : ∀ c ∈ a, sep c = false)
    (ha : a <:+: x) : a <:+: y := by
  obtain ⟨front, back, rfl⟩ := ha
  obtain ⟨front', back', rfl, hfront, -⟩ := h.of_append
  obtain ⟨front', a', rfl, -, ha'⟩ := hfront.of_append
  rw [ha'.eq_of_free hfree]
  exact ⟨front', back', rfl⟩

/-! ## Words -/

/-- A list is free of separators, or begins with a piece and a separator. -/
theorem blocks (h : Respaced sep fill x y) :
    ((∀ c ∈ x, sep c = false) ∧ y = x) ∨
      ∃ piece w rest run rest', (∀ c ∈ piece, sep c = false) ∧ sep w = true ∧
        x = piece ++ w :: rest ∧ run ≠ [] ∧ (∀ d ∈ run, sep d = true ∧ (d = w ∨ fill d)) ∧
        y = piece ++ (run ++ rest') ∧ Respaced sep fill rest rest' := by
  induction h with
  | nil => exact Or.inl ⟨fun _ hc => absurd hc not_mem_nil, rfl⟩
  | @keep c x y hc h ih =>
    rcases ih with ⟨hfree, rfl⟩ |
      ⟨piece, w, rest, run, rest', hpiece, hw, rfl, hne, hrun, rfl, hrest⟩
    · exact Or.inl ⟨forall_mem_cons.mpr ⟨hc, hfree⟩, rfl⟩
    · exact Or.inr ⟨c :: piece, w, rest, run, rest', forall_mem_cons.mpr ⟨hc, hpiece⟩, hw,
        rfl, hne, hrun, rfl, hrest⟩
  | @space c x y run hc hne hrun h _ =>
    exact Or.inr ⟨[], c, x, run, y, fun _ hc => absurd hc not_mem_nil, hc, rfl, hne, hrun,
      rfl, h⟩

end Respaced

variable [DecidableEq α]

theorem words_append {x y : List α} {w : α} (hw : sep w = true) :
    words sep (x ++ w :: y) = words sep x ++ words sep y := by
  unfold words
  rw [splitOnP_append_cons x y hw, filter_append]

theorem words_free {piece : List α} (h : ∀ c ∈ piece, sep c = false) :
    words sep piece = [piece].filter (· ≠ []) := by
  unfold words
  rw [splitOnP_eq_singleton h]

theorem words_run {run : List α} (hrun : ∀ d ∈ run, sep d = true) (rest : List α) :
    words sep (run ++ rest) = words sep rest := by
  induction run with
  | nil => rfl
  | cons r run ih =>
    obtain ⟨hr, hrun⟩ := forall_mem_cons.mp hrun
    have hcons : words sep ([] ++ r :: (run ++ rest)) = words sep [] ++ words sep (run ++ rest) :=
      words_append hr
    exact hcons.trans (ih hrun)

theorem words_run_end {run : List α} (hrun : ∀ d ∈ run, sep d = true) (rest : List α) :
    words sep (rest ++ run) = words sep rest := by
  induction run generalizing rest with
  | nil => rw [append_nil]
  | cons r run ih =>
    obtain ⟨hr, hrun⟩ := forall_mem_cons.mp hrun
    have hnone : words sep run = [] := ih hrun []
    rw [words_append hr, hnone, append_nil]

theorem words_stripped (l : List α) : words sep (stripped sep l) = words sep l := by
  have hsep : ∀ (l : List α), ∀ d ∈ l.takeWhile sep, sep d = true := fun l d hd =>
    mem_takeWhile_imp hd
  have hstart : words sep (l.dropWhile sep) = words sep l := by
    conv_rhs => rw [← takeWhile_append_dropWhile (p := sep) (l := l)]
    exact (words_run (hsep l) _).symm
  have hend : l.dropWhile sep = stripped sep l ++
      ((l.dropWhile sep).reverse.takeWhile sep).reverse := by
    unfold stripped
    rw [← reverse_append, takeWhile_append_dropWhile, reverse_reverse]
  rw [← hstart, hend, words_run_end fun d hd => hsep _ d (mem_reverse.mp hd)]

omit [DecidableEq α] in
/-- A list is free of separators, or begins with a piece that is. -/
theorem first_piece (sep : α → Bool) (l : List α) : (∀ c ∈ l, sep c = false) ∨
    ∃ piece w rest, (∀ c ∈ piece, sep c = false) ∧ sep w = true ∧ l = piece ++ w :: rest := by
  induction l with
  | nil => exact Or.inl fun _ hc => absurd hc not_mem_nil
  | cons a l ih =>
    cases ha : sep a with
    | true => exact Or.inr ⟨[], a, l, fun _ hc => absurd hc not_mem_nil, ha, rfl⟩
    | false =>
      rcases ih with hfree | ⟨piece, w, rest, hpiece, hw, rfl⟩
      · exact Or.inl (forall_mem_cons.mpr ⟨ha, hfree⟩)
      · exact Or.inr ⟨a :: piece, w, rest, forall_mem_cons.mpr ⟨ha, hpiece⟩, hw, rfl⟩

omit [DecidableEq α] in
/-- A list is free of separators, or ends with a piece that is. -/
theorem last_piece (sep : α → Bool) (l : List α) : (∀ c ∈ l, sep c = false) ∨
    ∃ rest w piece, (∀ c ∈ piece, sep c = false) ∧ sep w = true ∧ l = rest ++ w :: piece := by
  induction l with
  | nil => exact Or.inl fun _ hc => absurd hc not_mem_nil
  | cons a l ih =>
    rcases ih with hfree | ⟨rest, w, piece, hpiece, hw, rfl⟩
    · cases ha : sep a with
      | true => exact Or.inr ⟨[], a, l, hfree, ha, rfl⟩
      | false => exact Or.inl (forall_mem_cons.mpr ⟨ha, hfree⟩)
    · exact Or.inr ⟨a :: rest, w, piece, hpiece, hw, rfl⟩

/-- A word is the last one, or a separator stands behind it. -/
theorem last_or_followed {l t : List α} (h : t ∈ words sep l) :
    (words sep l).getLast? = some t ∨ ∃ w, sep w = true ∧ t ++ [w] <:+: l := by
  induction hlen : l.length using Nat.strongRecOn generalizing l with
  | ind len ih =>
    rcases first_piece sep l with hfree | ⟨piece, w, rest, hpiece, hw, rfl⟩
    · rw [words_free hfree] at h ⊢
      obtain ⟨ht, hne⟩ := mem_filter.mp h
      rw [mem_singleton] at ht
      subst ht
      rw [filter_cons_of_pos (p := fun l : List α => decide (l ≠ [])) hne]
      exact Or.inl rfl
    · rw [words_append hw, words_free hpiece] at h ⊢
      rcases mem_append.mp h with h | h
      · obtain ⟨ht, -⟩ := mem_filter.mp h
        rw [mem_singleton] at ht
        subst ht
        exact Or.inr ⟨w, hw, [], rest, by simp⟩
      · have hshort : rest.length < len := by
          rw [← hlen, length_append, length_cons]
          omega
        rcases ih rest.length hshort h rfl with hlast | ⟨v, hv, hwithin⟩
        · rw [getLast?_append, hlast]
          exact Or.inl rfl
        · exact Or.inr ⟨v, hv, hwithin.trans
            ((suffix_cons w rest).trans (suffix_append piece _)).isInfix⟩

namespace Respaced

variable {x y : List α}

theorem words_eq (h : Respaced sep fill x y) : words sep y = words sep x := by
  induction hlen : x.length using Nat.strongRecOn generalizing x y with
  | ind len ih =>
    rcases h.blocks with ⟨-, rfl⟩ |
      ⟨piece, w, rest, run, rest', hpiece, hw, rfl, hne, hrun, rfl, hrest⟩
    · rfl
    · obtain ⟨r, run, rfl⟩ := exists_cons_of_ne_nil hne
      obtain ⟨hr, hruns⟩ := forall_mem_cons.mp hrun
      have hshort : rest.length < len := by
        rw [← hlen, length_append, length_cons]
        omega
      rw [cons_append, words_append hr.1, words_append hw,
        words_run fun d hd => (hruns d hd).1, ih rest.length hshort hrest rfl]

end Respaced

end ContextDesk.Lib
