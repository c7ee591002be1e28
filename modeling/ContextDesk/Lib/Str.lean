import ContextDesk.Lib.Text

/-!
# Scanning methods of `str`

The searching and splitting methods of the standard library of the source, on texts as lists of
characters. Where the source has a byte index at a character boundary, the index here counts
characters.
-/

namespace ContextDesk.Lib.Str

open Lib.Text List

/-- `str::starts_with`. -/
def startsWith (start : String) (l : List Char) : Bool := start.toList.isPrefixOf l

/-- `str::contains`. -/
def contains (part : String) (l : List Char) : Bool := l.tails.any (startsWith part)

/-- `str::strip_prefix` of one character. -/
def stripStart (c : Char) : List Char → Option (List Char)
  | [] => none
  | d :: l => if d = c then some l else none

/-- `str::strip_suffix` of one character. -/
def stripEnd (c : Char) (l : List Char) : Option (List Char) :=
  if l.getLast? = some c then some l.dropLast else none

/-- What follows the first `c`: a `find`, and the slice after it. -/
def afterFirst (c : Char) (l : List Char) : Option (List Char) :=
  match l.dropWhile (· ≠ c) with
  | [] => none
  | _ :: rest => some rest

variable {c : Char}

theorem trimEnd_cons (hc : isWhitespace c = false) (l : List Char) :
    trimEnd (c :: l) = c :: trimEnd l := by
  unfold trimEnd
  rw [reverse_cons, dropWhile_append]
  split
  · rename_i he
    rw [List.isEmpty_iff.mp he]
    simp [hc]
  · simp

theorem trimEnd_trimEnd (l : List Char) : trimEnd (trimEnd l) = trimEnd l := by
  unfold trimEnd
  rw [reverse_reverse, dropWhile_idempotent]

/-- Trimming twice is trimming once. -/
theorem trim_trim (l : List Char) : trim (trim l) = trim l := by
  have hstart : trimStart (trim l) = trim l := by
    unfold trim
    cases hs : trimStart l with
    | nil => rfl
    | cons c rest =>
      have hc : isWhitespace c = false := by
        have := head?_dropWhile_not isWhitespace l
        unfold trimStart at hs
        simpa [hs] using this
      rw [trimEnd_cons hc]
      simp [trimStart, hc]
  show trimEnd (trimStart (trim l)) = trim l
  rw [hstart]
  exact trimEnd_trimEnd _

theorem toNat_toLower (c : Char) :
    c.toLower.toNat = if 65 ≤ c.toNat ∧ c.toNat ≤ 90 then c.toNat + 32 else c.toNat := by
  have hupper : c.isUpper = true ↔ 65 ≤ c.toNat ∧ c.toNat ≤ 90 := by
    simp [Char.isUpper, UInt32.le_iff_toNat_le]
  by_cases h : c.isUpper = true
  · have hn := hupper.mp h
    rw [if_pos hn, Char.toLower_eq_of_isUpper h, Char.toNat_ofNat, if_pos (Or.inl (by omega))]
  · rw [if_neg (fun hn => h (hupper.mpr hn)), Char.toLower_eq_of_not_isUpper h]

/-- `str::to_ascii_uppercase`. -/
def asciiUpper (l : List Char) : List Char := l.map Char.toUpper

/-- `str::lines`. -/
def lines (l : List Char) : List (List Char) :=
  let pieces := l.splitOn '\n'
  pieces.dropLast.map (fun line => (stripEnd '\r' line).getD line) ++
    (pieces.getLast?.filter (· ≠ [])).toList

/-- `str::splitn` at the characters that satisfy `p`. -/
def splitn (p : Char → Bool) : Nat → List Char → List (List Char)
  | 0, _ => []
  | 1, l => [l]
  | n + 2, l =>
    match l.dropWhile (fun c => !p c) with
    | [] => [l]
    | _ :: rest => l.takeWhile (fun c => !p c) :: splitn p (n + 1) rest

/-- `str::match_indices` from position `i` on, after `skip` characters of the previous match. -/
def matchIndices (needle : List Char) (skip i : Nat) : List Char → List Nat
  | [] => []
  | c :: l =>
    if 0 < skip then matchIndices needle (skip - 1) (i + 1) l
    else if needle.isPrefixOf (c :: l) then i :: matchIndices needle (needle.length - 1) (i + 1) l
    else matchIndices needle 0 (i + 1) l

/-- Texts without the character `d`, each behind a separator that has it, are determined by the
joined text. -/
theorem flatMap_separated_inj {front back : List Char} {d : Char} (hfront : d ∉ front)
    {l l' : List (List Char)} (hl : ∀ t ∈ l, d ∉ t) (hl' : ∀ t ∈ l', d ∉ t)
    (h : (l.flatMap fun t => front ++ d :: back ++ t) =
      l'.flatMap fun t => front ++ d :: back ++ t) : l = l' := by
  have hrest : ∀ l : List (List Char), (l.flatMap fun t => front ++ d :: back ++ t) = [] ∨
      ∃ rest, (l.flatMap fun t => front ++ d :: back ++ t) = front ++ d :: rest := by
    rintro (_ | ⟨t, l⟩)
    · exact .inl rfl
    · exact .inr ⟨_, by rw [flatMap_cons, append_assoc, append_assoc]; rfl⟩
  have htake : ∀ t rest : List Char, d ∉ t →
      (t ++ (front ++ d :: rest)).takeWhile (· ≠ d) = t ++ front := by
    intro t rest ht
    rw [← append_assoc, takeWhile_append_of_pos]
    · rw [takeWhile_cons_of_neg (by simp), append_nil]
    · intro c hc
      rw [decide_eq_true_eq]
      rintro rfl
      rcases mem_append.mp hc with hc | hc
      · exact ht hc
      · exact hfront hc
  have hmem : ∀ t rest : List Char, d ∈ t ++ (front ++ d :: rest) := by
    intro t rest
    simp
  induction l generalizing l' with
  | nil =>
    rcases l' with _ | ⟨t', l'⟩
    · rfl
    · rw [flatMap_nil, flatMap_cons] at h
      simp at h
  | cons t l ih =>
    rcases l' with _ | ⟨t', l'⟩
    · rw [flatMap_nil, flatMap_cons] at h
      simp at h
    · rw [flatMap_cons, flatMap_cons, append_assoc (front ++ d :: back),
        append_assoc (front ++ d :: back)] at h
      have hcut := append_cancel_left h
      have ht := hl t mem_cons_self
      have ht' := hl' t' mem_cons_self
      have hsame : t = t' := by
        rcases hrest l with hr | ⟨rest, hr⟩ <;> rcases hrest l' with hr' | ⟨rest', hr'⟩
        · rw [hr, hr', append_nil, append_nil] at hcut
          exact hcut
        · rw [hr, hr', append_nil] at hcut
          exact absurd (hcut ▸ hmem t' rest') ht
        · rw [hr, hr', append_nil] at hcut
          exact absurd (hcut ▸ hmem t rest) ht'
        · rw [hr, hr'] at hcut
          have htw := congrArg (List.takeWhile (· ≠ d)) hcut
          rw [htake _ _ ht, htake _ _ ht'] at htw
          exact append_cancel_right htw
      subst hsame
      rw [ih (fun t ht => hl t (mem_cons_of_mem _ ht))
        (fun t ht => hl' t (mem_cons_of_mem _ ht)) (append_cancel_left hcut)]

/-- Two parts on both sides of a character make the same text when they are the same, or when one
front goes on with the character into the other back. -/
theorem separated_eq_iff {front back front' back' : List Char} :
    front ++ c :: back = front' ++ c :: back' ↔ (front = front' ∧ back = back') ∨
      (∃ r, front = front' ++ c :: r ∧ back' = r ++ c :: back) ∨
      ∃ r, front' = front ++ c :: r ∧ back = r ++ c :: back' := by
  constructor
  · intro h
    rcases append_eq_append_iff.mp h with ⟨t, rfl, ht⟩ | ⟨t, rfl, ht⟩
    · obtain _ | ⟨d, t⟩ := t
      · exact .inl ⟨by rw [append_nil], (cons.inj ht).2⟩
      · obtain ⟨rfl, hback⟩ := cons.inj ht
        exact .inr (.inr ⟨t, rfl, hback⟩)
    · obtain _ | ⟨d, t⟩ := t
      · exact .inl ⟨by rw [append_nil], (cons.inj ht).2.symm⟩
      · obtain ⟨rfl, hback⟩ := cons.inj ht
        exact .inr (.inl ⟨t, rfl, hback⟩)
  · rintro (⟨rfl, rfl⟩ | ⟨r, rfl, rfl⟩ | ⟨r, rfl, rfl⟩)
    · rfl
    · rw [append_assoc, cons_append]
    · rw [append_assoc, cons_append]

/-! ## Parts and lines -/

variable {l : List Char} {part : String}

theorem startsWith_iff_begins :
    startsWith part l = true ↔ part.toList <+: l := List.isPrefixOf_iff_prefix

theorem contains_iff_within : contains part l = true ↔ part.toList <:+: l := by
  rw [contains, any_eq_true, infix_iff_prefix_suffix]
  constructor
  · rintro ⟨t, ht, hpart⟩
    exact ⟨t, startsWith_iff_begins.mp hpart, (mem_tails _ _).mp ht⟩
  · rintro ⟨t, hpart, ht⟩
    exact ⟨t, (mem_tails _ _).mpr ht, startsWith_iff_begins.mpr hpart⟩

/-- The first piece of a split text begins it, and every piece is a part of it. -/
theorem splitOnP_parts {p : Char → Bool} {first : List Char} {rest : List (List Char)}
    (h : l.splitOnP p = first :: rest) : first <+: l ∧ ∀ piece ∈ rest, piece <:+: l := by
  induction l generalizing first rest with
  | nil =>
    obtain ⟨rfl, rfl⟩ := cons.inj (splitOnP_nil.symm.trans h)
    exact ⟨prefix_refl _, fun _ hmem => absurd hmem not_mem_nil⟩
  | cons c l ih =>
    obtain ⟨first', rest', hl⟩ := exists_cons_of_ne_nil (splitOnP_ne_nil p l)
    obtain ⟨hfirst, hrest⟩ := ih hl
    rw [splitOnP_cons_eq_if_modifyHead, hl] at h
    split at h
    · obtain ⟨rfl, rfl⟩ := cons.inj h
      refine ⟨List.nil_prefix, fun piece hpiece => infix_cons ?_⟩
      rcases mem_cons.mp hpiece with rfl | hpiece
      · exact hfirst.isInfix
      · exact hrest piece hpiece
    · obtain ⟨rfl, rfl⟩ := cons.inj h
      exact ⟨(prefix_cons_inj c).mpr hfirst,
        fun piece hpiece => infix_cons (hrest piece hpiece)⟩

theorem infix_of_mem_splitOnP {p : Char → Bool} {piece : List Char} (h : piece ∈ l.splitOnP p) :
    piece <:+: l := by
  obtain ⟨first, rest, hl⟩ := exists_cons_of_ne_nil (splitOnP_ne_nil p l)
  obtain ⟨hfirst, hrest⟩ := splitOnP_parts hl
  rw [hl] at h
  rcases mem_cons.mp h with rfl | h
  · exact hfirst.isInfix
  · exact hrest piece h

/-- A line without the carriage return of its end. -/
def stripCr (line : List Char) : List Char := (stripEnd '\r' line).getD line

theorem intercalate_concat {pieces : List (List Char)} (h : pieces ≠ []) (sep piece : List Char) :
    sep.intercalate (pieces ++ [piece]) = sep.intercalate pieces ++ sep ++ piece := by
  induction pieces with
  | nil => exact absurd rfl h
  | cons first pieces ih =>
    cases pieces with
    | nil => simp [List.intercalate]
    | cons second pieces =>
      have := ih (by simp)
      simp only [List.intercalate, cons_append, intersperse_cons_cons,
        flatten_cons] at this ⊢
      rw [this]
      simp

end ContextDesk.Lib.Str
