import Mathlib

/-!
# Lines with quoted spans

A span is what stands between two quotes. `outside` is a text without its spans. A text is framed
when each span is closed on its line (`Framed`, with the text outside); framed texts are put
together piece by piece, and what is outside of the whole is what is outside of the pieces.
-/

namespace ContextDesk.Lib.CodeSpan

open List

variable {α : Type}

/-- The text with what is outside of its spans, each of which is closed on its line. -/
inductive Framed (quote newline : α) : List α → List α → Prop
  | nil : Framed quote newline [] []
  | plain {c : α} {text out : List α} (hc : c ≠ quote) (h : Framed quote newline text out) :
      Framed quote newline (c :: text) (c :: out)
  | span {body text out : List α} (hquote : quote ∉ body) (hline : newline ∉ body)
      (h : Framed quote newline text out) : Framed quote newline (quote :: (body ++ quote :: text)) out

variable {quote newline : α}

/-! ## Putting framed texts together -/

theorem Framed.append {a b x y : List α} (ha : Framed quote newline a x)
    (hb : Framed quote newline b y) : Framed quote newline (a ++ b) (x ++ y) := by
  induction ha with
  | nil => exact hb
  | plain hc _ ih => exact .plain hc ih
  | span hquote hline _ ih =>
    rw [cons_append, append_assoc, cons_append]
    exact .span hquote hline ih

theorem Framed.of_plain {text : List α} (h : quote ∉ text) : Framed quote newline text text := by
  induction text with
  | nil => exact .nil
  | cons c text ih =>
    rw [mem_cons, not_or] at h
    exact .plain (Ne.symm h.1) (ih h.2)

theorem Framed.one_span {body : List α} (hquote : quote ∉ body) (hline : newline ∉ body) :
    Framed quote newline (quote :: (body ++ [quote])) [] := .span hquote hline .nil

/-! ## What a framed text looks like -/

variable [DecidableEq α]

/-- The text outside of the spans, `inside` telling whether a span is open. -/
def outsideFrom (quote : α) : Bool → List α → List α
  | _, [] => []
  | inside, c :: l =>
    if c = quote then outsideFrom quote (!inside) l
    else if inside then outsideFrom quote inside l
    else c :: outsideFrom quote inside l

def outside (quote : α) (text : List α) : List α := outsideFrom quote false text

theorem outsideFrom_body {body : List α} (h : quote ∉ body) (text : List α) :
    outsideFrom quote true (body ++ quote :: text) = outsideFrom quote false text := by
  induction body with
  | nil => rw [nil_append, outsideFrom, if_pos rfl, Bool.not_true]
  | cons c body ih =>
    rw [mem_cons, not_or] at h
    rw [cons_append, outsideFrom, if_neg (Ne.symm h.1), if_pos rfl]
    exact ih h.2

theorem Framed.outside_eq {text out : List α} (h : Framed quote newline text out) :
    outside quote text = out := by
  induction h with
  | nil => rfl
  | plain hc _ ih =>
    unfold outside at *
    rw [outsideFrom, if_neg hc, if_neg Bool.false_ne_true, ih]
  | span hquote _ _ ih =>
    unfold outside at *
    rw [outsideFrom, if_pos rfl, Bool.not_false, outsideFrom_body hquote, ih]

/-- What is read of a line does not change the others. -/
theorem splitOn_append {front : List α} (h : newline ∉ front) (text : List α) :
    (front ++ text).splitOn newline = (text.splitOn newline).modifyHead (front ++ ·) := by
  induction front with
  | nil =>
    cases hs : text.splitOn newline with
    | nil => simp [hs]
    | cons line lines => simp [hs]
  | cons c front ih =>
    rw [mem_cons, not_or] at h
    have hc : (c == newline) = false := beq_eq_false_iff_ne.mpr (Ne.symm h.1)
    rw [cons_append, splitOn_cons_eq_if_modifyHead, hc, if_neg Bool.false_ne_true,
      ih h.2, modifyHead_modifyHead]
    rfl

theorem mem_line {text line : List α} {c : α} (hline : line ∈ text.splitOn newline)
    (hc : c ∈ line) : c ∈ text ∧ c ≠ newline := by
  induction text generalizing line with
  | nil =>
    rw [splitOn_nil, mem_singleton] at hline
    subst hline
    cases hc
  | cons d text ih =>
    rw [splitOn_cons_eq_if_modifyHead] at hline
    split at hline
    · rcases mem_cons.mp hline with rfl | hline
      · cases hc
      · exact ⟨mem_cons_of_mem _ (ih hline hc).1, (ih hline hc).2⟩
    · rename_i hd
      cases hs : text.splitOn newline with
      | nil =>
        rw [hs] at hline
        cases hline
      | cons first lines =>
        rw [hs, modifyHead_cons] at hline
        rcases mem_cons.mp hline with rfl | hline
        · rcases mem_cons.mp hc with rfl | hc
          · exact ⟨mem_cons_self, by simpa using hd⟩
          · have h := ih (hs ▸ mem_cons_self) hc
            exact ⟨mem_cons_of_mem _ h.1, h.2⟩
        · have h := ih (hs ▸ mem_cons_of_mem _ hline) hc
          exact ⟨mem_cons_of_mem _ h.1, h.2⟩

theorem Framed.even_lines (hne : newline ≠ quote) {text out : List α}
    (h : Framed quote newline text out) :
    ∀ line ∈ text.splitOn newline, Even (line.count quote) := by
  -- a piece with an even number of quotes in front of the first line
  have hfront : ∀ {front text : List α}, newline ∉ front → Even (front.count quote) →
      (∀ line ∈ text.splitOn newline, Even (line.count quote)) →
      ∀ line ∈ (front ++ text).splitOn newline, Even (line.count quote) := by
    intro front text hfront heven htext line hline
    rw [splitOn_append hfront] at hline
    cases hs : text.splitOn newline with
    | nil =>
      rw [hs] at hline
      cases hline
    | cons first lines =>
      rw [hs] at hline htext
      rcases mem_cons.mp hline with rfl | hline
      · rw [count_append]
        exact heven.add (htext first mem_cons_self)
      · exact htext line (mem_cons_of_mem _ hline)
  induction h with
  | nil => simp
  | @plain c text out hc _ ih =>
    by_cases hn : c = newline
    · subst hn
      rw [splitOn_cons_eq_if_modifyHead, if_pos (beq_self_eq_true c)]
      exact forall_mem_cons.mpr ⟨by simp, ih⟩
    · refine @hfront [c] text (by simpa using Ne.symm hn) ?_ ih
      rw [count_singleton, if_neg (by simpa using hc)]
      exact Even.zero
  | @span body text out hquote hline _ ih =>
    have hsplit : quote :: (body ++ quote :: text) = (quote :: (body ++ [quote])) ++ text := by
      simp
    rw [hsplit]
    refine hfront ?_ ?_ ih
    · simp [hne, hline]
    · rw [count_cons_self, count_append, count_eq_zero.mpr hquote,
        count_singleton_self]
      exact even_two

end ContextDesk.Lib.CodeSpan
