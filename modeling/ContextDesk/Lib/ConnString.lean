import ContextDesk.Lib.Text

/-!
# Connection strings

Parameters written as `key=value` with white space between them. A value in single quotes ends at
the next quote, another one at the next white space, and in both a backslash takes the character
behind it as it is. `quoteValue` writes a value so that it is read back (`value_quoteValue`), and
`render` a list of parameters (`parse_render`).
-/

namespace ContextDesk.Lib.ConnString

open Lib.Text List

/-- A keyword and its value. -/
abbrev Param := List Char × List Char

/-! ## Reading -/

/-- A value up to white space, and what is left. -/
def simpleValue : List Char → List Char × List Char
  | [] => ([], [])
  | '\\' :: c :: l => (c :: (simpleValue l).1, (simpleValue l).2)
  | ['\\'] => ([], [])
  | c :: l => if isWhitespace c then ([], c :: l) else (c :: (simpleValue l).1, (simpleValue l).2)

/-- A value up to the closing quote, and what is left behind the quote. -/
def quotedValue : List Char → Outcome (List Char × List Char)
  | [] => .error "unterminated quoted connection parameter value"
  | '\'' :: l => .ok ([], l)
  | '\\' :: c :: l => do
    let (value, rest) ← quotedValue l
    pure (c :: value, rest)
  | c :: l => do
    let (value, rest) ← quotedValue l
    pure (c :: value, rest)

def value : List Char → Outcome (List Char × List Char)
  | '\'' :: l => quotedValue l
  | l => do
    ensure ((simpleValue l).1 ≠ []) "unexpected EOF"
    pure (simpleValue l)

/-- A character of a keyword. -/
def isKeyChar (c : Char) : Bool := !isWhitespace c && c != '='

/-- The parameters of a text; each one takes a character at least. -/
def parameters : Nat → List Char → Outcome (List Param)
  | 0, _ => .error "more parameters than characters"
  | fuel + 1, l => do
    let l := trimStart l
    let key := l.takeWhile isKeyChar
    if key = [] then pure []
    else
      match trimStart (l.dropWhile isKeyChar) with
      | '=' :: l => do
        let (value, rest) ← value (trimStart l)
        let params ← parameters fuel rest
        pure ((key, value) :: params)
      | _ => .error "expected ="

def parse (l : List Char) : Outcome (List Param) := parameters (l.length + 1) l

/-! ## Writing -/

/-- A character that a value has in quotes only. -/
def isSpecial (c : Char) : Bool := isWhitespace c || c == '\'' || c == '\\'

/-- `str::replace` of one character. -/
def replaceChar (c : Char) (new l : List Char) : List Char :=
  l.flatMap fun d => if d = c then new else [d]

def quoteValue (v : List Char) : List Char :=
  if v.isEmpty || v.any isSpecial then
    '\'' :: replaceChar '\'' ['\\', '\''] (replaceChar '\\' ['\\', '\\'] v) ++ ['\'']
  else v

/-- Parameters with a blank between them. -/
def render : List Param → List Char
  | [] => []
  | [(key, v)] => key ++ '=' :: quoteValue v
  | (key, v) :: params => key ++ '=' :: quoteValue v ++ ' ' :: render params

/-! ## Reading what was written -/

/-- A text that does not go on with the value in front of it. -/
def Ends (rest : List Char) : Prop := ∀ c ∈ rest.head?, isWhitespace c = true

variable {rest : List Char}

theorem simpleValue_plain {v : List Char} (hv : ∀ c ∈ v, isSpecial c = false) (hrest : Ends rest) :
    simpleValue (v ++ rest) = (v, rest) := by
  induction v with
  | nil =>
    cases rest with
    | nil => rfl
    | cons c rest =>
      have hc : isWhitespace c = true := hrest c rfl
      have hne : c ≠ '\\' := by
        rintro rfl
        cases hc
      rw [nil_append, simpleValue, if_pos hc]
      · rintro _ _ rfl
        exact absurd rfl hne
      · rintro rfl
        exact absurd rfl hne
  | cons c v ih =>
    have hc := hv c mem_cons_self
    simp only [isSpecial, Bool.or_eq_false_iff, beq_eq_false_iff_ne] at hc
    obtain ⟨⟨hspace, -⟩, hslash⟩ := hc
    rw [cons_append, simpleValue, if_neg (by simp [hspace]),
      ih fun d hd => hv d (mem_cons_of_mem _ hd)]
    · rintro _ _ rfl
      exact absurd rfl hslash
    · rintro rfl
      exact absurd rfl hslash

/-- The two replacements escape every character once. -/
theorem replace_replace (v : List Char) :
    replaceChar '\'' ['\\', '\''] (replaceChar '\\' ['\\', '\\'] v) =
      v.flatMap fun c => if c = '\'' ∨ c = '\\' then ['\\', c] else [c] := by
  unfold replaceChar
  rw [flatMap_assoc]
  refine flatMap_congr fun c _ => ?_
  by_cases hslash : c = '\\'
  · subst hslash
    rfl
  · by_cases hquote : c = '\''
    · subst hquote
      rfl
    · simp [hslash, hquote]

theorem quotedValue_escaped (v rest : List Char) :
    quotedValue ((v.flatMap fun c => if c = '\'' ∨ c = '\\' then ['\\', c] else [c]) ++
      '\'' :: rest) = .ok (v, rest) := by
  induction v with
  | nil => rfl
  | cons c v ih =>
    rw [flatMap_cons]
    by_cases hc : c = '\'' ∨ c = '\\'
    · rw [if_pos hc]
      simp only [cons_append, nil_append, quotedValue, bind_ok, pure_ok]
      exact ⟨_, ih, rfl⟩
    · rw [if_neg hc]
      simp only [not_or] at hc
      rw [cons_append, nil_append, cons_append, quotedValue]
      · simp only [bind_ok, pure_ok]
        exact ⟨_, ih, rfl⟩
      · rintro rfl
        exact absurd rfl hc.1
      · rintro _ _ rfl
        exact absurd rfl hc.2

/-- A written value is read back, and nothing behind it is taken. -/
theorem value_quoteValue (v : List Char) (hrest : Ends rest) :
    value (quoteValue v ++ rest) = .ok (v, rest) := by
  unfold quoteValue
  by_cases hquote : (v.isEmpty || v.any isSpecial) = true
  · rw [if_pos hquote, replace_replace, append_assoc, singleton_append, cons_append,
      value]
    exact quotedValue_escaped v rest
  · rw [if_neg hquote]
    simp only [Bool.or_eq_true, List.isEmpty_iff, any_eq_true, not_or, not_exists, not_and,
      Bool.not_eq_true] at hquote
    obtain ⟨hne, hplain⟩ := hquote
    have hsimple := simpleValue_plain hplain hrest
    obtain ⟨c, v, rfl⟩ := exists_cons_of_ne_nil hne
    have hc := hplain c mem_cons_self
    rw [cons_append] at hsimple ⊢
    rw [value]
    · rw [hsimple]
      simp only [bind_ok, ensure_ok, pure_ok]
      exact ⟨(), hne, trivial⟩
    · intro l heq
      obtain ⟨rfl, -⟩ := cons.inj heq
      cases hc

/-- A keyword is not empty, and has neither white space nor an equals sign. -/
def IsKey (key : List Char) : Prop := key ≠ [] ∧ ∀ c ∈ key, isKeyChar c = true

theorem trimStart_cons {c : Char} (hc : isWhitespace c = false) (l : List Char) :
    trimStart (c :: l) = c :: l := by
  simp [trimStart, hc]

theorem takeWhile_key {key : List Char} (h : IsKey key) (rest : List Char) :
    (key ++ '=' :: rest).takeWhile isKeyChar = key ∧
      (key ++ '=' :: rest).dropWhile isKeyChar = '=' :: rest := by
  have hstop : isKeyChar '=' = false := rfl
  rw [takeWhile_append_of_pos h.2, dropWhile_append_of_pos h.2]
  simp [hstop]

/-- A written value does not begin with white space. -/
theorem trimStart_quoteValue (v rest : List Char) :
    trimStart (quoteValue v ++ rest) = quoteValue v ++ rest := by
  unfold quoteValue
  split
  · rfl
  · rename_i hquote
    simp only [Bool.or_eq_true, List.isEmpty_iff, any_eq_true, not_or, not_exists, not_and,
      Bool.not_eq_true] at hquote
    obtain ⟨c, v, rfl⟩ := exists_cons_of_ne_nil hquote.1
    have hc := hquote.2 c mem_cons_self
    simp only [isSpecial, Bool.or_eq_false_iff] at hc
    exact trimStart_cons hc.1.1 _

/-- One parameter in front of others. -/
theorem parameters_cons {key v : List Char} {fuel : Nat} {params : List Param} (hkey : IsKey key)
    (hrest : Ends rest) (h : parameters fuel rest = .ok params) :
    parameters (fuel + 1) (key ++ '=' :: quoteValue v ++ rest) = .ok ((key, v) :: params) := by
  obtain ⟨c, key', rfl⟩ := exists_cons_of_ne_nil hkey.1
  have hc := hkey.2 c mem_cons_self
  have hspace : isWhitespace c = false := by
    unfold isKeyChar at hc
    rw [Bool.and_eq_true, Bool.not_eq_true'] at hc
    exact hc.1
  have htext : c :: key' ++ '=' :: quoteValue v ++ rest =
      c :: key' ++ '=' :: (quoteValue v ++ rest) := by simp
  have htrim : trimStart (c :: key' ++ '=' :: (quoteValue v ++ rest)) =
      c :: key' ++ '=' :: (quoteValue v ++ rest) := trimStart_cons hspace _
  obtain ⟨htake, hdrop⟩ := takeWhile_key hkey (quoteValue v ++ rest)
  have heq : trimStart ('=' :: (quoteValue v ++ rest)) = '=' :: (quoteValue v ++ rest) :=
    trimStart_cons rfl _
  simp only [parameters, htext, htrim, htake, hdrop, heq, if_neg hkey.1, trimStart_quoteValue,
    bind_ok, pure_ok]
  exact ⟨(v, rest), value_quoteValue v hrest, params, h, rfl⟩

/-- Written parameters are read back, each with its value, and no others. -/
theorem parse_render {params : List Param} (h : ∀ p ∈ params, IsKey p.1) :
    parse (render params) = .ok params := by
  have hrun : ∀ (params : List Param), (∀ p ∈ params, IsKey p.1) → ∀ fuel, params.length < fuel →
      parameters fuel (render params) = .ok params ∧
      parameters fuel (' ' :: render params) = .ok params := by
    intro params
    induction params with
    | nil =>
      rintro - (_ | fuel) hfuel
      · omega
      · exact ⟨rfl, rfl⟩
    | cons p params ih =>
      rintro hkeys (_ | fuel) hfuel
      · omega
      obtain ⟨key, v⟩ := p
      have hkey : IsKey key := hkeys _ mem_cons_self
      rw [length_cons] at hfuel
      obtain ⟨hrest, hblank⟩ := ih (fun p hp => hkeys p (mem_cons_of_mem _ hp)) fuel (by omega)
      have hread : parameters (fuel + 1) (render ((key, v) :: params)) = .ok ((key, v) :: params) := by
        cases params with
        | nil =>
          have := parameters_cons (v := v) hkey (show Ends [] by rintro _ ⟨⟩) hrest
          rwa [append_nil] at this
        | cons p params => exact parameters_cons hkey (by rintro _ ⟨⟩; rfl) hblank
      refine ⟨hread, ?_⟩
      -- the blank in front is trimmed
      rw [parameters] at hread ⊢
      exact hread
  have hlength : ∀ params : List Param, (∀ p ∈ params, IsKey p.1) →
      params.length ≤ (render params).length := by
    intro params
    induction params with
    | nil => simp [render]
    | cons p params ih =>
      intro hkeys
      have := ih fun p hp => hkeys p (mem_cons_of_mem _ hp)
      obtain ⟨key, v⟩ := p
      cases params with
      | nil =>
        simp only [render, length_append, length_cons, length_nil]
        omega
      | cons p params =>
        simp only [length_cons] at this ⊢
        simp only [render, length_append, length_cons]
        omega
  exact (hrun params h _ (Nat.lt_succ_of_le (hlength params h))).1

end ContextDesk.Lib.ConnString
