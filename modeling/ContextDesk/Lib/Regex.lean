import ContextDesk.Lib.JsString

/-!
# Regular expressions

The part of the language of patterns that the checks of texts use, over units. A match is at a
position: the unit before it, if there is one, and the units after it. A pattern that needs a unit
of some kind has no match in a text without such units (`test_eq_false`).
-/

namespace ContextDesk.Lib

open List

inductive Regex where
  | empty
  | unit (p : UInt16 → Bool)
  /-- `p*`. -/
  | many (p : UInt16 → Bool)
  /-- `\b`. -/
  | boundary
  | seq (a b : Regex)
  | alt (a b : Regex)

namespace Regex

structure Position where
  before : Option UInt16
  rest : JsString

/-- `\w`. -/
def isWordUnit (u : UInt16) : Bool :=
  (48 ≤ u && u ≤ 57) || (65 ≤ u && u ≤ 90) || u == 95 || (97 ≤ u && u ≤ 122)

def manyFrom (p : UInt16 → Bool) : Option UInt16 → JsString → List Position
  | before, [] => [⟨before, []⟩]
  | before, u :: rest =>
    ⟨before, u :: rest⟩ :: (if p u then manyFrom p (some u) rest else [])

/-- The positions after the matches at a position. -/
def ends : Regex → Position → List Position
  | empty, place => [place]
  | unit p, ⟨_, u :: rest⟩ => if p u then [⟨some u, rest⟩] else []
  | unit _, ⟨_, []⟩ => []
  | many p, ⟨before, rest⟩ => manyFrom p before rest
  | boundary, place =>
    if place.before.any isWordUnit != place.rest.head?.any isWordUnit then [place] else []
  | seq a b, place => (a.ends place).flatMap b.ends
  | alt a b, place => a.ends place ++ b.ends place

/-- Whether there is a match from the position on. -/
def testFrom (r : Regex) : Option UInt16 → JsString → Bool
  | before, [] => !(r.ends ⟨before, []⟩).isEmpty
  | before, u :: rest => !(r.ends ⟨before, u :: rest⟩).isEmpty || testFrom r (some u) rest

/-- `RegExp.prototype.test`. -/
def test (r : Regex) (s : JsString) : Bool := r.testFrom none s

/-! ## Building patterns -/

def lowerUnit (u : UInt16) : UInt16 := if 65 ≤ u && u ≤ 90 then u + 32 else u

/-- One letter of a pattern that ignores the case; `c` is in lower case. -/
def letter (c : UInt16) : Regex := .unit fun u => lowerUnit u == c

/-- The units one after the other. -/
def literal (w : String) : Regex :=
  (JsString.ofString w).foldr (fun c r => .seq (letter c) r) .empty

def option (r : Regex) : Regex := .alt r .empty

def times (p : UInt16 → Bool) : Nat → Regex
  | 0 => .empty
  | n + 1 => .seq (.unit p) (times p n)

def oneOf : List Regex → Regex
  | [] => .unit fun _ => false
  | [r] => r
  | r :: rs => .alt r (oneOf rs)

/-! ## Texts without a match -/

variable {place : Position}

theorem manyFrom_suffix {p : UInt16 → Bool} {rest : JsString} {before : Option UInt16}
    (h : place ∈ manyFrom p before rest) : place.rest <:+ rest := by
  induction rest generalizing before with
  | nil =>
    rw [manyFrom, mem_singleton] at h
    subst h
    exact suffix_refl _
  | cons u rest ih =>
    rw [manyFrom, mem_cons] at h
    rcases h with rfl | h
    · exact suffix_refl _
    · split at h
      · exact (ih h).trans (suffix_cons u rest)
      · exact absurd h not_mem_nil

variable {r : Regex}

/-- A match takes units from the front. -/
theorem ends_suffix {after : Position} (h : after ∈ r.ends place) : after.rest <:+ place.rest := by
  induction r generalizing place after with
  | empty =>
    rw [ends, mem_singleton] at h
    subst h
    exact suffix_refl _
  | unit p =>
    obtain ⟨before, _ | ⟨u, rest⟩⟩ := place
    · exact absurd h not_mem_nil
    · rw [ends] at h
      split at h
      · rw [mem_singleton] at h
        rw [h]
        exact suffix_cons u rest
      · exact absurd h not_mem_nil
  | many p => exact manyFrom_suffix h
  | boundary =>
    rw [ends] at h
    split at h
    · rw [mem_singleton] at h
      subst h
      exact suffix_refl _
    · exact absurd h not_mem_nil
  | seq a b iha ihb =>
    rw [ends, mem_flatMap] at h
    obtain ⟨middle, hmiddle, hafter⟩ := h
    exact (ihb hafter).trans (iha hmiddle)
  | alt a b iha ihb =>
    rw [ends, mem_append] at h
    rcases h with h | h
    · exact iha h
    · exact ihb h

/-- Every match has a unit that is not a `q`. -/
def Needs (q : UInt16 → Bool) : Regex → Prop
  | unit p => ∀ u, q u = true → p u = false
  | seq a b => a.Needs q ∨ b.Needs q
  | alt a b => a.Needs q ∧ b.Needs q
  | _ => False

theorem Needs.ends_eq_nil {q : UInt16 → Bool} (h : r.Needs q)
    (hrest : ∀ u ∈ place.rest, q u = true) : r.ends place = [] := by
  induction r generalizing place with
  | empty | many | boundary => exact h.elim
  | unit p =>
    obtain ⟨before, _ | ⟨u, rest⟩⟩ := place
    · rfl
    · rw [ends, h u (hrest u mem_cons_self)]
      rfl
  | seq a b iha ihb =>
    rw [ends, flatMap_eq_nil_iff]
    intro middle hmiddle
    rcases h with h | h
    · rw [iha h hrest] at hmiddle
      exact absurd hmiddle not_mem_nil
    · exact ihb h fun u hu => hrest u ((ends_suffix hmiddle).subset hu)
  | alt a b iha ihb => rw [ends, iha h.1 hrest, ihb h.2 hrest, append_nil]

theorem testFrom_eq_false {q : UInt16 → Bool} (h : r.Needs q) {s : JsString}
    (hs : ∀ u ∈ s, q u = true) (before : Option UInt16) : r.testFrom before s = false := by
  induction s generalizing before with
  | nil => rw [testFrom, h.ends_eq_nil hs, isEmpty_nil, Bool.not_true]
  | cons u s ih =>
    rw [testFrom, h.ends_eq_nil hs, ih fun v hv => hs v (mem_cons_of_mem u hv)]
    rfl

theorem test_eq_false {q : UInt16 → Bool} (h : r.Needs q) {s : JsString}
    (hs : ∀ u ∈ s, q u = true) : r.test s = false := testFrom_eq_false h hs none

theorem needs_literal {q : UInt16 → Bool} {w : String} {c : UInt16}
    (hc : c ∈ JsString.ofString w) (hq : ∀ u, q u = true → lowerUnit u ≠ c) :
    (literal w).Needs q := by
  unfold literal
  generalize JsString.ofString w = l at hc
  induction l with
  | nil => exact absurd hc not_mem_nil
  | cons d l ih =>
    rw [foldr_cons]
    rcases mem_cons.mp hc with rfl | hc
    · left
      intro u hu
      simpa using hq u hu
    · exact .inr (ih hc)

end Regex

end ContextDesk.Lib
