import ContextDesk.Lib.Outcome

/-!
# Lexical paths

The components of a slash-separated path, and `normalise`, which resolves `.` and `..` without
looking at a file system: `..` takes the last name away, stays at the root of an absolute path, and
is kept at the start of a relative one. `staysWithin` says that some components, walked from a
directory, never climb above it; `normalise_append_below` is what that is good for.
-/

namespace ContextDesk.Lib

open List

structure LexPath where
  absolute : Bool
  parts : List (List Char)
  deriving DecidableEq

namespace LexPath

def parent : List Char := ['.', '.']

/-- The components of a path, less the empty ones and the dots. -/
def components (l : List Char) : List (List Char) :=
  (l.splitOn '/').filter fun c => c ≠ [] && c ≠ ['.']

/-- Walk one component; the stack has the last name first. -/
def walk (absolute : Bool) (stack : List (List Char)) (c : List Char) : List (List Char) :=
  if c = parent then
    match stack with
    | [] => if absolute then [] else [parent]
    | top :: rest => if top = parent then parent :: top :: rest else rest
  else c :: stack

def isAbsolute (l : List Char) : Bool := l.head? = some '/'

def normalise (l : List Char) : LexPath :=
  ⟨isAbsolute l, ((components l).foldl (walk (isAbsolute l)) []).reverse⟩

/-- The same directory, or one below it. -/
def AtOrBelow (p g : LexPath) : Prop := p.absolute = g.absolute ∧ g.parts <+: p.parts

instance atOrBelowDecidable (p g : LexPath) : Decidable (AtOrBelow p g) :=
  inferInstanceAs (Decidable (p.absolute = g.absolute ∧ g.parts <+: p.parts))

/-- Walking the components from a depth never climbs above the start. -/
def staysWithin : Nat → List (List Char) → Bool
  | _, [] => true
  | depth, c :: rest =>
    if c = parent then 0 < depth && staysWithin (depth - 1) rest
    else staysWithin (depth + 1) rest

@[simp] theorem components_nil : components [] = [] := rfl

theorem components_append_slash (a b : List Char) :
    components (a ++ '/' :: b) = components a ++ components b := by
  unfold components
  rw [splitOn_append_cons_self, filter_append]

theorem components_concat_slash (a : List Char) : components (a ++ ['/']) = components a := by
  rw [components_append_slash, components_nil, append_nil]

theorem components_append_slashes (a : List Char) (k : Nat) :
    components (a ++ replicate k '/') = components a := by
  induction k generalizing a with
  | zero => rw [replicate_zero, append_nil]
  | succ k ih => rw [replicate_succ, append_cons, ih, components_concat_slash]

/-- Slashes at the end name the same place. -/
theorem normalise_append_slashes {a : List Char} (ha : a ≠ []) (k : Nat) :
    normalise (a ++ replicate k '/') = normalise a := by
  have habs : isAbsolute (a ++ replicate k '/') = isAbsolute a := by
    cases a with
    | nil => exact absurd rfl ha
    | cons c a => rfl
  unfold normalise
  rw [habs, components_append_slashes]

/-- Names pushed on a stack and a walk that stays within them leave the stack below untouched. -/
theorem foldl_walk_within {absolute : Bool} {cs names base : List (List Char)}
    (hnames : parent ∉ names) (h : staysWithin names.length cs = true) :
    base <:+ cs.foldl (walk absolute) (names ++ base) := by
  induction cs generalizing names with
  | nil => exact suffix_append names base
  | cons c cs ih =>
    rw [foldl_cons]
    unfold staysWithin at h
    by_cases hc : c = parent
    · rw [if_pos hc, Bool.and_eq_true] at h
      cases names with
      | nil => exact absurd h.1 (by simp)
      | cons name names =>
        rw [mem_cons, not_or] at hnames
        have hwalk : walk absolute (name :: names ++ base) c = names ++ base := by
          simp [walk, hc, Ne.symm hnames.1]
        rw [hwalk]
        exact ih hnames.2 (by simpa using h.2)
    · rw [if_neg hc] at h
      have hwalk : walk absolute (names ++ base) c = (c :: names) ++ base := by
        simp [walk, hc]
      rw [hwalk]
      refine ih ?_ h
      rw [mem_cons, not_or]
      exact ⟨fun he => hc he.symm, hnames⟩

/-- A path that goes on from a directory and never climbs above it lies at or below it. -/
theorem normalise_append_below {g rest : List Char} (hg : g ≠ [])
    (h : staysWithin 0 (components rest) = true) :
    AtOrBelow (normalise (g ++ '/' :: rest)) (normalise g) := by
  have habs : isAbsolute (g ++ '/' :: rest) = isAbsolute g := by
    cases g with
    | nil => exact absurd rfl hg
    | cons c g => rfl
  refine ⟨habs, ?_⟩
  unfold normalise
  rw [habs, components_append_slash, foldl_append, reverse_prefix]
  exact @foldl_walk_within _ _ [] _ not_mem_nil h

theorem AtOrBelow.refl (p : LexPath) : AtOrBelow p p := ⟨rfl, prefix_rfl⟩

end LexPath

end ContextDesk.Lib
