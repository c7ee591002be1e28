import ContextDesk.Lib.Outcome

/-!
# Conditions of a `WHERE` clause

A condition is true, false or unknown; unknown is what a comparison with `NULL` gives, and a row
is selected only when every condition is true. `like` is pattern matching with `%` and `_` and no
escape character; `like_contains` says when `%p%` is a search for `p`.
-/

namespace ContextDesk.Lib.Sql

/-- A truth value; `none` is unknown. -/
abbrev Truth := Option Bool

/-- `x IN (l)`. -/
def isIn {α : Type} [DecidableEq α] (x : Option α) (l : List α) : Truth :=
  x.map fun a => decide (a ∈ l)

/-- `x NOT IN (l)`. -/
def notIn {α : Type} [DecidableEq α] (x : Option α) (l : List α) : Truth :=
  x.map fun a => decide (a ∉ l)

/-- `x = a`. -/
def eq {α : Type} [DecidableEq α] (x : Option α) (a : α) : Truth :=
  x.map fun b => decide (b = a)

/-- Every condition is true. -/
def allTrue (conditions : List Truth) : Bool :=
  conditions.all (· == some true)

/-! ## `LIKE` -/

/-- A character that a pattern does not match literally. -/
def isWild (c : Char) : Bool := c = '%' ∨ c = '_'

/-- The pattern, then the text. -/
def like : List Char → List Char → Bool
  | [], text => text.isEmpty
  | c :: p, text =>
    if c = '%' then text.tails.any (like p)
    else
      match text with
      | [] => false
      | d :: rest => (c = '_' || c = d) && like p rest

variable {text : List Char}

theorem like_nil : like [] text = true ↔ text = [] := by
  simp [like]

variable {p : List Char}

theorem like_percent : like ('%' :: p) text = true ↔ ∃ s, s <:+ text ∧ like p s = true := by
  simp [like]

theorem like_char {c : Char} (hc : c ≠ '%') :
    like (c :: p) text = true ↔
      ∃ d rest, text = d :: rest ∧ (c = '_' ∨ c = d) ∧ like p rest = true := by
  cases text with
  | nil => simp [like, hc]
  | cons d rest => simp [like, hc]

/-- A pattern in two parts splits the text in two. -/
theorem like_append {q : List Char} :
    like (p ++ q) text = true ↔
      ∃ a b, text = a ++ b ∧ like p a = true ∧ like q b = true := by
  induction p generalizing text with
  | nil => simp [like_nil]
  | cons c p ih =>
    by_cases hc : c = '%'
    · subst hc
      rw [List.cons_append, like_percent]
      constructor
      · rintro ⟨s, ⟨x, rfl⟩, hs⟩
        obtain ⟨a, b, rfl, ha, hb⟩ := ih.mp hs
        refine ⟨x ++ a, b, by simp, ?_, hb⟩
        exact like_percent.mpr ⟨a, List.suffix_append x a, ha⟩
      · rintro ⟨a, b, rfl, ha, hb⟩
        obtain ⟨s, ⟨x, rfl⟩, hs⟩ := like_percent.mp ha
        exact ⟨s ++ b, ⟨x, by simp⟩, ih.mpr ⟨s, b, rfl, hs, hb⟩⟩
    · rw [List.cons_append, like_char hc]
      constructor
      · rintro ⟨d, rest, rfl, hd, hrest⟩
        obtain ⟨a, b, rfl, ha, hb⟩ := ih.mp hrest
        exact ⟨d :: a, b, rfl, (like_char hc).mpr ⟨d, a, rfl, hd, ha⟩, hb⟩
      · rintro ⟨a, b, rfl, ha, hb⟩
        obtain ⟨d, rest, rfl, hd, hrest⟩ := (like_char hc).mp ha
        exact ⟨d, rest ++ b, rfl, hd, ih.mpr ⟨rest, b, rfl, hrest, hb⟩⟩

theorem like_percent_self (text : List Char) : like ['%'] text = true :=
  like_percent.mpr ⟨[], List.nil_suffix, like_nil.mpr rfl⟩

/-- `%p%` matches a text with a part that `p` matches. -/
theorem like_part : like ('%' :: p ++ ['%']) text = true ↔ ∃ s, s <:+: text ∧ like p s = true := by
  rw [List.cons_append, like_percent]
  constructor
  · rintro ⟨s, ⟨x, rfl⟩, hs⟩
    obtain ⟨a, b, rfl, ha, -⟩ := like_append.mp hs
    exact ⟨a, ⟨x, b, by simp⟩, ha⟩
  · rintro ⟨s, ⟨x, y, rfl⟩, hs⟩
    refine ⟨s ++ y, ⟨x, by simp⟩, like_append.mpr ⟨s, y, rfl, hs, like_percent_self y⟩⟩

/-- A pattern without wildcards matches itself only. -/
theorem like_literal (hp : ∀ c ∈ p, isWild c = false) : like p text = true ↔ text = p := by
  induction p generalizing text with
  | nil => exact like_nil
  | cons c p ih =>
    have hc := hp c List.mem_cons_self
    simp only [isWild, decide_eq_false_iff_not, not_or] at hc
    rw [like_char hc.1]
    constructor
    · rintro ⟨d, rest, rfl, hd | rfl, hrest⟩
      · exact absurd hd hc.2
      · rw [(ih fun c' hc' => hp c' (List.mem_cons_of_mem _ hc')).mp hrest]
    · rintro rfl
      exact ⟨c, p, rfl, .inr rfl, (ih fun c' hc' => hp c' (List.mem_cons_of_mem _ hc')).mpr rfl⟩

/-- `%p%` is a search for `p` when `p` has no wildcards. -/
theorem like_contains (hp : ∀ c ∈ p, isWild c = false) :
    like ('%' :: p ++ ['%']) text = true ↔ p <:+: text := by
  rw [like_part]
  constructor
  · rintro ⟨s, hs, hlike⟩
    rwa [(like_literal hp).mp hlike] at hs
  · intro h
    exact ⟨p, h, (like_literal hp).mpr rfl⟩

/-- Every wildcard of a pattern matches any one character put in its place. -/
theorem like_map {f : Char → Char} (hf : ∀ c, isWild c = false → f c = c) (p : List Char) :
    like p (p.map f) = true := by
  induction p with
  | nil => exact like_nil.mpr rfl
  | cons c p ih =>
    by_cases hc : c = '%'
    · subst hc
      exact like_percent.mpr ⟨p.map f, List.suffix_cons _ _, ih⟩
    · refine (like_char hc).mpr ⟨f c, p.map f, rfl, ?_, ih⟩
      by_cases hu : c = '_'
      · exact .inl hu
      · exact .inr (hf c (by simp [isWild, hc, hu])).symm

end ContextDesk.Lib.Sql
