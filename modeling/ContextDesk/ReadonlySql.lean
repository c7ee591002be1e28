import ContextDesk.Lib.Respaced
import ContextDesk.Lib.Str

/-!
# The filter for read-only statements

`validate_readonly_sql` looks for each denied keyword with one space behind it, in the trimmed and
lowercased statement. A database reads a tab or a line break as it reads a space, and a keyword may
be the last word of a statement: both are let through. What an accepted statement promises (no
denied word, semicolons at the end only, and the same verdict however its white space is written)
holds exactly for the statements in which no denied keyword stands before any white space or at the
end, and no white space but a space alone between `into` and `outfile` (`validate_exact`).

Of `to_lowercase` only what is used is known (`Lowercase`): it goes through a text piece by piece
between white space and semicolons.
-/

namespace ContextDesk.ReadonlySql

open Lib Lib.Text List

abbrev Text := List Char

def isBreak (c : Char) : Bool := isWhitespace c || c = ';'

/-- `str::to_lowercase`. -/
structure Lowercase where
  lower : Text → Text
  ascii : ∀ x, (∀ c ∈ x, c.toNat < 128) → lower x = asciiLower x
  split : ∀ x c y, isBreak c = true → lower (x ++ c :: y) = lower x ++ c :: lower y
  free : ∀ x, (∀ c ∈ x, isBreak c = false) → ∀ c ∈ lower x, isBreak c = false
  ne_nil : ∀ x, x ≠ [] → lower x ≠ []

/-- `trim_end_matches` of one character. -/
def trimEndMatches (c : Char) (l : Text) : Text := (l.reverse.dropWhile (· = c)).reverse

def denied : List String :=
  ["insert ", "update ", "delete ", "drop ", "alter ", "create ", "truncate ", "grant ", "revoke ",
    "copy ", "attach ", "pragma ", "into outfile", "execute ", "call "]

/-- More than one statement: a semicolon may only end it. -/
def severalStatements (lower : Text) : Bool :=
  lower.contains ';' && 0 < (trimEnd lower).count ';' &&
    (trimEndMatches ';' (trimEnd lower)).contains ';'

/-- A `WITH` that selects nothing. -/
def withoutSelect (lower : Text) : Bool :=
  !Str.contains " select " lower && !Str.contains "\nselect " lower && !Str.contains "select" lower

def validateReadonlySql (lc : Lowercase) (sql : Text) : Except String Unit :=
  let s := trim sql
  if s = [] then .error "empty SQL"
  else
    let lower := lc.lower s
    if severalStatements lower then .error "multiple statements not allowed"
    else
      match denied.find? fun bad => Str.contains bad lower with
      | some bad => .error ("SQL keyword blocked: " ++ bad)
      | none =>
        let first := (words isWhitespace lower).head?.getD []
        if first ≠ "select".toList ∧ first ≠ "with".toList then
          .error "only SELECT (or WITH … SELECT) statements allowed"
        else if first = "with".toList ∧ withoutSelect lower then
          .error "WITH must include SELECT"
        else .ok ()

/-! ## What is accepted -/

structure Passes (low : Text) : Prop where
  single : ';' ∉ trimEndMatches ';' (trimEnd low)
  clean : ∀ bad ∈ denied, ¬ bad.toList <:+: low
  first : (words isWhitespace low).head?.getD [] = "select".toList ∨
    (words isWhitespace low).head?.getD [] = "with".toList
  selects : (words isWhitespace low).head?.getD [] = "with".toList → "select".toList <:+: low

theorem trimEnd_sublist (l : Text) : (trimEnd l).Sublist l := by
  unfold trimEnd
  have h := reverse_sublist.mpr (dropWhile_sublist isWhitespace (l := l.reverse))
  rwa [reverse_reverse] at h

theorem trimEndMatches_sublist (c : Char) (l : Text) : (trimEndMatches c l).Sublist l := by
  unfold trimEndMatches
  have h := reverse_sublist.mpr (dropWhile_sublist (· = c) (l := l.reverse))
  rwa [reverse_reverse] at h

variable {low : Text}

theorem severalStatements_iff :
    severalStatements low = true ↔ ';' ∈ trimEndMatches ';' (trimEnd low) := by
  unfold severalStatements
  rw [Bool.and_eq_true, Bool.and_eq_true, decide_eq_true_iff, count_pos_iff,
    contains_iff_mem, contains_iff_mem]
  refine ⟨fun h => h.2, fun h => ?_⟩
  have hend := (trimEndMatches_sublist ';' (trimEnd low)).subset h
  exact ⟨⟨(trimEnd_sublist low).subset hend, hend⟩, h⟩

theorem withoutSelect_iff : withoutSelect low = true ↔ ¬ "select".toList <:+: low := by
  have hspaced : ∀ before : Char, ¬ "select".toList <:+: low →
      ¬ before :: "select ".toList <:+: low := by
    intro before h hwithin
    exact h (List.IsInfix.trans ⟨[before], [' '], rfl⟩ hwithin)
  unfold withoutSelect
  simp only [Bool.and_eq_true, Bool.not_eq_true', ← Bool.not_eq_true, Str.contains_iff_within]
  exact ⟨fun h => h.2, fun h => ⟨⟨hspaced ' ' h, hspaced '\n' h⟩, h⟩⟩

theorem validate_ok {lc : Lowercase} {sql : Text} :
    validateReadonlySql lc sql = .ok () ↔ trim sql ≠ [] ∧ Passes (lc.lower (trim sql)) := by
  unfold validateReadonlySql
  simp only
  generalize trim sql = s
  generalize lc.lower s = low
  by_cases hs : s = []
  · rw [if_pos hs]
    exact ⟨nofun, fun h => absurd hs h.1⟩
  rw [if_neg hs]
  by_cases hseveral : severalStatements low = true
  · rw [if_pos hseveral]
    exact ⟨nofun, fun h => absurd (severalStatements_iff.mp hseveral) h.2.single⟩
  rw [if_neg hseveral]
  cases hfind : denied.find? fun bad => Str.contains bad low with
  | some bad =>
    have hfound := find?_some (p := fun bad => Str.contains bad low) hfind
    exact ⟨nofun, fun h => absurd (Str.contains_iff_within.mp hfound)
      (h.2.clean bad (mem_of_find?_eq_some hfind))⟩
  | none =>
    simp only
    have hclean : ∀ bad ∈ denied, ¬ bad.toList <:+: low := fun bad hbad hwithin =>
      find?_eq_none.mp hfind bad hbad (Str.contains_iff_within.mpr hwithin)
    by_cases hfirst : (words isWhitespace low).head?.getD [] ≠ "select".toList ∧
        (words isWhitespace low).head?.getD [] ≠ "with".toList
    · rw [if_pos hfirst]
      exact ⟨nofun, fun h => absurd hfirst (by
        rw [← not_or, not_not]
        exact h.2.first)⟩
    rw [if_neg hfirst]
    by_cases hwith : (words isWhitespace low).head?.getD [] = "with".toList ∧
        withoutSelect low = true
    · rw [if_pos hwith]
      exact ⟨nofun,
        fun h => absurd (h.2.selects hwith.1) (withoutSelect_iff.mp hwith.2)⟩
    rw [if_neg hwith]
    refine ⟨fun _ => ⟨hs, ⟨?_, hclean, ?_, fun h => ?_⟩⟩, fun _ => rfl⟩
    · exact fun h => hseveral (severalStatements_iff.mpr h)
    · rw [← not_or, not_not] at hfirst
      exact hfirst
    · exact not_not.mp fun hnot => hwith ⟨h, withoutSelect_iff.mpr hnot⟩

/-! ## Lowercasing piece by piece -/

variable {lc : Lowercase}

theorem lower_nil : lc.lower [] = [] := lc.ascii [] fun _ hc => absurd hc not_mem_nil

variable {c : Char}

theorem isBreak_of_space (h : isWhitespace c = true) : isBreak c = true := by
  rw [isBreak, h, Bool.true_or]

theorem lower_run {run : Text} (hrun : ∀ d ∈ run, isWhitespace d = true) (y : Text) :
    lc.lower (run ++ y) = run ++ lc.lower y := by
  induction run with
  | nil => rfl
  | cons r run ih =>
    obtain ⟨hr, hrun⟩ := forall_mem_cons.mp hrun
    have hsplit := lc.split [] r (run ++ y) (isBreak_of_space hr)
    rw [lower_nil, ih hrun] at hsplit
    exact hsplit

variable {x : Text}

theorem lower_respaced {fill : Char → Prop} {y : Text} (h : Respaced isWhitespace fill x y) :
    Respaced isWhitespace fill (lc.lower x) (lc.lower y) := by
  induction hlen : x.length using Nat.strongRecOn generalizing x y with
  | ind len ih =>
    rcases h.blocks with ⟨-, rfl⟩ |
      ⟨piece, w, rest, run, rest', -, hw, rfl, hne, hrun, rfl, hrest⟩
    · exact .refl _
    · have hshort : rest.length < len := by
        rw [← hlen, length_append, length_cons]
        omega
      have hback := Respaced.space hw hne hrun (ih rest.length hshort hrest rfl)
      obtain ⟨r, run, rfl⟩ := exists_cons_of_ne_nil hne
      obtain ⟨hr, hruns⟩ := forall_mem_cons.mp hrun
      rw [lc.split _ _ _ (isBreak_of_space hw), cons_append,
        lc.split _ _ _ (isBreak_of_space hr.1), lower_run fun d hd => (hruns d hd).1]
      exact (Respaced.refl _).append hback

theorem lower_space_free (h : ∀ c ∈ x, isWhitespace c = false) :
    ∀ c ∈ lc.lower x, isWhitespace c = false := by
  have hpiece : ∀ x, (∀ c ∈ x, isBreak c = false) → ∀ c ∈ lc.lower x, isWhitespace c = false := by
    intro x hx c hc
    exact (Bool.or_eq_false_iff.mp (lc.free x hx c hc)).1
  induction hlen : x.length using Nat.strongRecOn generalizing x with
  | ind len ih =>
    rcases first_piece isBreak x with hfree | ⟨piece, w, rest, hfree, hw, rfl⟩
    · exact hpiece x hfree
    · have hshort : rest.length < len := by
        rw [← hlen, length_append, length_cons]
        omega
      have hrest := ih rest.length hshort (fun c hc => h c
        (mem_append_right _ (mem_cons_of_mem _ hc))) rfl
      intro c hc
      rw [lc.split _ _ _ hw] at hc
      rcases mem_append.mp hc with hc | hc
      · exact hpiece piece hfree c hc
      · rcases mem_cons.mp hc with rfl | hc
        · exact h c (mem_append_right _ mem_cons_self)
        · exact hrest c hc

theorem lower_eq_nil : lc.lower x = [] ↔ x = [] :=
  ⟨fun h => not_not.mp fun hne => lc.ne_nil x hne h, fun h => by rw [h, lower_nil]⟩

theorem lower_words (x : Text) :
    words isWhitespace (lc.lower x) = (words isWhitespace x).map lc.lower := by
  have hfilter : ∀ piece : Text, ([lc.lower piece].filter (· ≠ [])) =
      ([piece].filter (· ≠ [])).map lc.lower := by
    intro piece
    by_cases hpiece : piece = []
    · simp [hpiece, lower_nil]
    · simp [hpiece, lower_eq_nil]
  induction hlen : x.length using Nat.strongRecOn generalizing x with
  | ind len ih =>
    rcases first_piece isWhitespace x with hfree | ⟨piece, w, rest, hfree, hw, rfl⟩
    · rw [words_free hfree, words_free (lower_space_free hfree), hfilter]
    · have hshort : rest.length < len := by
        rw [← hlen, length_append, length_cons]
        omega
      rw [lc.split _ _ _ (isBreak_of_space hw), words_append hw, words_append hw, map_append,
        words_free hfree, words_free (lower_space_free hfree), hfilter, ih rest.length hshort rest rfl]

theorem lower_concat (x : Text) (e : Char) : ∃ z e', lc.lower (x ++ [e]) = z ++ [e'] ∧
    (e' = e ∨ isBreak e' = false ∧ isBreak e = false) := by
  cases he : isBreak e with
  | true => exact ⟨lc.lower x, e, by rw [lc.split _ _ _ he, lower_nil], Or.inl rfl⟩
  | false =>
    have hend : ∀ t : Text, t ≠ [] → (∀ c ∈ t, isBreak c = false) →
        ∃ z e', lc.lower t = z ++ [e'] ∧ isBreak e' = false := by
      intro t hne hfree
      have hlast := (dropLast_concat_getLast (lc.ne_nil t hne)).symm
      exact ⟨_, _, hlast, lc.free t hfree _ (getLast_mem (lc.ne_nil t hne))⟩
    rcases last_piece isBreak (x ++ [e]) with hfree | ⟨rest, w, piece, hfree, hw, hsplit⟩
    · obtain ⟨z, e', hz, he'⟩ := hend _ (by simp) hfree
      exact ⟨z, e', hz, Or.inr ⟨he', rfl⟩⟩
    · have hne : piece ≠ [] := by
        rintro rfl
        have hlast := congrArg List.getLast? hsplit
        rw [getLast?_concat, getLast?_concat, Option.some.injEq] at hlast
        rw [hlast, hw] at he
        cases he
      obtain ⟨z, e', hz, he'⟩ := hend piece hne hfree
      refine ⟨lc.lower rest ++ w :: z, e', ?_, Or.inr ⟨he', rfl⟩⟩
      rw [hsplit, lc.split _ _ _ hw, hz, append_assoc]
      rfl

/-! ## Semicolons at the end -/

/-- No semicolon but a run of them at the end. -/
def EndsOnly (l : Text) : Prop := ∃ front n, l = front ++ replicate n ';' ∧ ';' ∉ front

theorem trimEndMatches_split (c : Char) (l : Text) :
    ∃ n, l = trimEndMatches c l ++ replicate n c := by
  refine ⟨(l.reverse.takeWhile (· = c)).length, ?_⟩
  have hrun : l.reverse.takeWhile (· = c) =
      replicate (l.reverse.takeWhile (· = c)).length c :=
    eq_replicate_of_mem fun d hd =>
      of_decide_eq_true (mem_takeWhile_imp (p := fun x => decide (x = c)) hd)
  unfold trimEndMatches
  rw [← reverse_replicate, ← hrun, ← reverse_append, takeWhile_append_dropWhile,
    reverse_reverse]

variable {e : Char}

theorem trimEndMatches_run (he : e ≠ c) (u : Text) (n : Nat) :
    trimEndMatches c (u ++ [e] ++ replicate n c) = u ++ [e] := by
  unfold trimEndMatches
  rw [reverse_append, reverse_replicate, dropWhile_append_of_pos, reverse_append,
    reverse_singleton, singleton_append, dropWhile_cons_of_neg]
  · rw [reverse_cons, reverse_reverse]
  · simpa using he
  · intro d hd
    exact decide_eq_true (eq_of_mem_replicate hd)

variable {l : Text}

theorem endsOnly_iff : EndsOnly l ↔ ';' ∉ trimEndMatches ';' l := by
  constructor
  · rintro ⟨front, n, rfl, hfront⟩
    rcases eq_nil_or_concat front with rfl | ⟨u, e, rfl⟩
    · intro h
      have hmem := (trimEndMatches_sublist ';' _).subset h
      have hnone : trimEndMatches ';' ([] ++ replicate n ';') = [] := by
        unfold trimEndMatches
        rw [nil_append, reverse_replicate, reverse_eq_nil_iff,
          dropWhile_eq_nil_iff]
        exact fun d hd => decide_eq_true (eq_of_mem_replicate hd)
      rw [hnone] at h
      cases h
    · rw [concat_eq_append] at hfront ⊢
      have he : e ≠ ';' := fun h => hfront (h ▸ mem_append_right _ mem_cons_self)
      rw [trimEndMatches_run he]
      exact hfront
  · intro h
    obtain ⟨n, hn⟩ := trimEndMatches_split ';' l
    exact ⟨_, n, hn, h⟩

theorem EndsOnly.respaced {fill : Char → Prop} {y : Text} (h : EndsOnly x)
    (hrespaced : Respaced isWhitespace fill x y) : EndsOnly y := by
  obtain ⟨front, n, rfl, hfront⟩ := h
  obtain ⟨front', back', rfl, hfront', hback⟩ := hrespaced.of_append
  refine ⟨front', n, ?_, fun hmem => hfront (hfront'.mem_of_mem (by decide) hmem)⟩
  rw [hback.eq_of_free fun c hc => by rw [eq_of_mem_replicate hc]; decide]

theorem trimEnd_concat (he : isWhitespace e = false) (l : Text) :
    trimEnd (l ++ [e]) = l ++ [e] := by
  unfold trimEnd
  rw [reverse_append, reverse_singleton, singleton_append,
    dropWhile_cons_of_neg (by rw [he]; exact Bool.false_ne_true), reverse_cons,
    reverse_reverse]

theorem last_of_trimmed (h : trimEnd (l ++ [e]) = l ++ [e]) : isWhitespace e = false := by
  by_contra he
  rw [Bool.not_eq_false] at he
  have hshort : (trimEnd (l ++ [e])).length ≤ l.length := by
    unfold trimEnd
    rw [reverse_append, reverse_singleton, singleton_append,
      dropWhile_cons_of_pos he, length_reverse]
    exact (dropWhile_sublist _).length_le.trans (Nat.le_of_eq length_reverse)
  rw [h, length_append, length_singleton] at hshort
  omega

theorem lower_semicolons (u : Text) (n : Nat) :
    lc.lower (u ++ replicate n ';') = lc.lower u ++ replicate n ';' := by
  induction n generalizing u with
  | zero => simp
  | succ n ih =>
    have hrest := ih []
    rw [nil_append, lower_nil, nil_append] at hrest
    rw [replicate_succ, lc.split u ';' _ (by decide), hrest]

theorem endsOnly_or_inside (s : Text) : EndsOnly s ∨
    ∃ x y e n, s = x ++ ';' :: (y ++ [e] ++ replicate n ';') ∧ e ≠ ';' := by
  induction s with
  | nil => exact Or.inl ⟨[], 0, rfl, not_mem_nil⟩
  | cons c s ih =>
    rcases ih with ⟨front, n, rfl, hfront⟩ | ⟨x, y, e, n, rfl, he⟩
    · by_cases hc : c = ';'
      · rcases eq_nil_or_concat' front with rfl | ⟨u, e, rfl⟩
        · exact Or.inl ⟨[], n + 1, by rw [hc]; rfl, not_mem_nil⟩
        · refine Or.inr ⟨[], u, e, n, by rw [hc]; rfl, fun he => hfront ?_⟩
          exact he ▸ mem_append_right _ mem_cons_self
      · refine Or.inl ⟨c :: front, n, rfl, fun hmem => ?_⟩
        rcases mem_cons.mp hmem with h | h
        · exact hc h.symm
        · exact hfront h
    · exact Or.inr ⟨c :: x, y, e, n, rfl, he⟩

/-- Lowercasing hides no semicolon. -/
theorem endsOnly_of_lower {s : Text} (htrim : trimEnd s = s)
    (h : EndsOnly (trimEnd (lc.lower s))) : EndsOnly s := by
  rcases endsOnly_or_inside s with hs | ⟨x, y, e, n, rfl, he⟩
  · exact hs
  exfalso
  obtain ⟨z, e', hz, hkept⟩ := @lower_concat lc y e
  have he' : e' ≠ ';' := by
    rcases hkept with rfl | ⟨hbreak, -⟩
    · exact he
    · rintro rfl
      exact absurd hbreak (by decide)
  have hlow : lc.lower (x ++ ';' :: (y ++ [e] ++ replicate n ';')) =
      (lc.lower x ++ ';' :: z) ++ [e'] ++ replicate n ';' := by
    rw [lc.split x ';' _ (by decide), lower_semicolons, hz]
    simp
  have hend : trimEnd ((lc.lower x ++ ';' :: z) ++ [e'] ++ replicate n ';') =
      (lc.lower x ++ ';' :: z) ++ [e'] ++ replicate n ';' := by
    cases n with
    | zero =>
      rw [replicate_zero, append_nil] at htrim ⊢
      rw [← cons_append, ← append_assoc] at htrim
      refine trimEnd_concat ?_ _
      rcases hkept with rfl | ⟨hbreak, -⟩
      · exact last_of_trimmed htrim
      · exact (Bool.or_eq_false_iff.mp hbreak).1
    | succ n =>
      rw [replicate_succ', ← append_assoc]
      exact trimEnd_concat (by decide) _
  rw [hlow, hend, endsOnly_iff, trimEndMatches_run he'] at h
  exact h (by simp)

/-! ## What an accepted statement promises -/

def deniedKeywords : List Text :=
  ["insert".toList, "update".toList, "delete".toList, "drop".toList, "alter".toList,
    "create".toList, "truncate".toList, "grant".toList, "revoke".toList, "copy".toList,
    "attach".toList, "pragma".toList, "execute".toList, "call".toList]

def asciiSpaces : List Char := [' ', '\t', '\n', '\r']

structure Sound (lc : Lowercase) (sql : Text) : Prop where
  keywords : ∀ t ∈ words isWhitespace sql, lc.lower t ∉ deniedKeywords
  single : EndsOnly (trim sql)
  respaced : ∀ sql', Respaced isWhitespace (· ∈ asciiSpaces) sql sql' →
    validateReadonlySql lc sql' = .ok ()

structure Plain (lc : Lowercase) (sql : Text) : Prop where
  followed : ∀ kw ∈ deniedKeywords, ∀ w, isWhitespace w = true →
    ¬ kw ++ [w] <:+: lc.lower (trim sql)
  last : ∀ t, (words isWhitespace sql).getLast? = some t → lc.lower t ∉ deniedKeywords
  outfile : ∀ w, isWhitespace w = true →
    ¬ "into".toList ++ w :: "outfile".toList <:+: lc.lower (trim sql)

theorem keyword_tables :
    (∀ bad ∈ denied, (∃ kw ∈ deniedKeywords, bad.toList = kw ++ [' ']) ∨
      bad.toList = "into".toList ++ ' ' :: "outfile".toList) ∧
    (∀ kw ∈ deniedKeywords, ∃ bad ∈ denied, bad.toList = kw ++ [' ']) ∧
    (deniedKeywords.all fun kw => !kw.isEmpty && kw.all fun c => !isWhitespace c) = true ∧
    ∀ word ∈ ["into", "outfile", "select"], (word.toList.all fun c => !isWhitespace c) = true := by
  decide +kernel

theorem free_of_all {part : Text} (h : part.all (fun c => !isWhitespace c) = true) :
    ∀ c ∈ part, isWhitespace c = false := by
  intro c hc
  have hfree := all_eq_true.mp h c hc
  rwa [Bool.not_eq_true'] at hfree

theorem word_free {word : String} (h : word ∈ ["into", "outfile", "select"]) :
    ∀ c ∈ word.toList, isWhitespace c = false :=
  free_of_all (keyword_tables.2.2.2 word h)

theorem keyword_free {kw : Text} (h : kw ∈ deniedKeywords) :
    kw ≠ [] ∧ ∀ c ∈ kw, isWhitespace c = false := by
  have hkw := all_eq_true.mp keyword_tables.2.2.1 kw h
  rw [Bool.and_eq_true, Bool.not_eq_true', isEmpty_eq_false_iff] at hkw
  exact ⟨hkw.1, free_of_all hkw.2⟩

theorem Passes.respaced {low' : Text} (h : Passes low)
    (hrespaced : Respaced isWhitespace (· ∈ asciiSpaces) low low')
    (hfollowed : ∀ kw ∈ deniedKeywords, ∀ w, isWhitespace w = true → ¬ kw ++ [w] <:+: low)
    (houtfile : ∀ w, isWhitespace w = true → ¬ "into".toList ++ w :: "outfile".toList <:+: low) :
    Passes low' := by
  have hwords := hrespaced.words_eq
  refine ⟨?_, ?_, by rw [hwords]; exact h.first, fun hwith => ?_⟩
  · rw [← endsOnly_iff]
    exact (endsOnly_iff.mpr h.single).respaced hrespaced.reverse.dropWhile.reverse
  · intro bad hbad hwithin
    rcases keyword_tables.1 bad hbad with ⟨kw, hkw, heq⟩ | heq
    · rw [heq] at hwithin
      obtain ⟨hne, hfree⟩ := keyword_free hkw
      obtain ⟨w, hw, hx⟩ := hrespaced.around hne hfree (fun _ hc => absurd hc not_mem_nil)
        (by decide) hwithin
      exact hfollowed kw hkw w hw hx
    · rw [heq] at hwithin
      obtain ⟨w, hw, hx⟩ := hrespaced.around (cons_ne_nil _ _)
        (@word_free "into" (by decide)) (@word_free "outfile" (by decide))
        (by decide) hwithin
      exact houtfile w hw hx
  · rw [hwords] at hwith
    exact hrespaced.part_to_part (@word_free "select" (by decide)) (h.selects hwith)

def spaced (l : Text) : Text := l.map fun c => if isWhitespace c then ' ' else c

theorem spaced_free (h : ∀ c ∈ l, isWhitespace c = false) : spaced l = l := by
  unfold spaced
  rw [map_congr_left (g := id) fun c hc => by rw [h c hc]; rfl, map_id]

theorem spaced_append (x y : Text) : spaced (x ++ y) = spaced x ++ spaced y := map_append

theorem spaced_around {a b : Text} {w : Char} (ha : ∀ c ∈ a, isWhitespace c = false)
    (hb : ∀ c ∈ b, isWhitespace c = false) (hw : isWhitespace w = true) :
    spaced (a ++ w :: b) = a ++ ' ' :: b := by
  have hcons : spaced (w :: b) = ' ' :: spaced b := by
    unfold spaced
    rw [map_cons, if_pos hw]
  rw [spaced_append, hcons, spaced_free ha, spaced_free hb]

theorem trim_spaced (l : Text) : trim (spaced l) = spaced (trim l) := by
  have hsame : (isWhitespace ∘ fun c => if isWhitespace c then ' ' else c) = isWhitespace := by
    funext c
    cases hc : isWhitespace c with
    | true => rw [Function.comp_apply, if_pos hc]; decide
    | false => rw [Function.comp_apply, if_neg (by rw [hc]; exact Bool.false_ne_true), hc]
  unfold trim trimEnd trimStart spaced
  rw [dropWhile_map, hsame, ← map_reverse, dropWhile_map, hsame, map_reverse]

theorem lower_spaced (l : Text) : lc.lower (spaced l) = spaced (lc.lower l) := by
  induction hlen : l.length using Nat.strongRecOn generalizing l with
  | ind len ih =>
    rcases first_piece isWhitespace l with hfree | ⟨piece, w, rest, hfree, hw, rfl⟩
    · rw [spaced_free hfree, spaced_free (lower_space_free hfree)]
    · have hshort : rest.length < len := by
        rw [← hlen, length_append, length_cons]
        omega
      have hcons : ∀ l : Text, spaced (w :: l) = ' ' :: spaced l := by
        intro l
        unfold spaced
        rw [map_cons, if_pos hw]
      rw [lc.split _ _ _ (isBreak_of_space hw), spaced_append, spaced_append, hcons, hcons,
        spaced_free hfree, spaced_free (lower_space_free hfree), lc.split _ _ _ (by decide),
        ih rest.length hshort rest rfl]

theorem words_trim (l : Text) : words isWhitespace (trim l) = words isWhitespace l :=
  words_stripped l

theorem keywords_of_plain {sql : Text} (h : Plain lc sql) :
    ∀ t ∈ words isWhitespace sql, lc.lower t ∉ deniedKeywords := by
  intro t ht hdenied
  have hlow : words isWhitespace (lc.lower (trim sql)) = (words isWhitespace sql).map lc.lower := by
    rw [lower_words, words_trim]
  have hmem : lc.lower t ∈ words isWhitespace (lc.lower (trim sql)) := by
    rw [hlow]
    exact mem_map_of_mem ht
  rcases last_or_followed hmem with hlast | ⟨w, hw, hwithin⟩
  · rw [hlow, getLast?_map, Option.map_eq_some_iff] at hlast
    obtain ⟨t', ht', heq⟩ := hlast
    exact h.last t' ht' (heq ▸ hdenied)
  · exact h.followed _ hdenied w hw hwithin

/-- An accepted statement keeps its promises exactly when it hides no keyword behind white space
that is not a space, or at its end. -/
theorem validate_exact {lc : Lowercase} {sql : Text} (h : validateReadonlySql lc sql = .ok ()) :
    Sound lc sql ↔ Plain lc sql := by
  obtain ⟨hne, hpasses⟩ := validate_ok.mp h
  constructor
  · intro hsound
    have hspaced := hsound.respaced (spaced sql)
      (.single (by decide) (by simp [asciiSpaces]) sql)
    have hclean := (validate_ok.mp hspaced).2.clean
    rw [trim_spaced, lower_spaced] at hclean
    refine ⟨fun kw hkw w hw hwithin => ?_, fun t ht => ?_, fun w hw hwithin => ?_⟩
    · obtain ⟨bad, hbad, heq⟩ := keyword_tables.2.1 kw hkw
      refine hclean bad hbad ?_
      rw [heq, ← spaced_around (keyword_free hkw).2 (fun _ hc => absurd hc not_mem_nil) hw]
      exact hwithin.map _
    · exact hsound.keywords t (mem_of_getLast? ht)
    · refine hclean "into outfile" (by decide) ?_
      rw [show "into outfile".toList = "into".toList ++ ' ' :: "outfile".toList by decide,
        ← spaced_around (@word_free "into" (by decide)) (@word_free "outfile" (by decide)) hw]
      exact hwithin.map _
  · intro hplain
    refine ⟨keywords_of_plain hplain, ?_, fun sql' hrespaced => ?_⟩
    · refine endsOnly_of_lower ?_ (endsOnly_iff.mpr hpasses.single)
      exact Str.trimEnd_trimEnd _
    · have htrim : Respaced isWhitespace (· ∈ asciiSpaces) (trim sql) (trim sql') :=
        hrespaced.stripped
      refine validate_ok.mpr ⟨fun hnil => hne (htrim.eq_nil_iff.mp hnil), ?_⟩
      exact hpasses.respaced (lower_respaced htrim) hplain.followed hplain.outfile

theorem isBreak_letter (h : 65 ≤ c.toNat ∧ c.toNat ≤ 122) : isBreak c = false := by
  have hne : c ≠ ';' := by
    rintro rfl
    exact absurd h (by decide)
  unfold isBreak isWhitespace
  simp only [hne, decide_false, Bool.or_false, Bool.or_eq_false_iff, Bool.and_eq_false_iff,
    decide_eq_false_iff_not, beq_eq_false_iff_ne]
  omega

theorem toLower_break (c : Char) :
    isBreak c.toLower = isBreak c ∧ (isBreak c = true → c.toLower = c) := by
  have hnat := Str.toNat_toLower c
  by_cases h : 65 ≤ c.toNat ∧ c.toNat ≤ 90
  · rw [if_pos h] at hnat
    have hc := isBreak_letter (c := c) ⟨h.1, by omega⟩
    refine ⟨by rw [hc, isBreak_letter ⟨by omega, by omega⟩], fun hb => ?_⟩
    rw [hc] at hb
    cases hb
  · rw [if_neg h] at hnat
    have hsame : c.toLower = c := Char.toNat_inj.mp hnat
    exact ⟨by rw [hsame], fun _ => hsame⟩

def asciiLowercase : Lowercase where
  lower := asciiLower
  ascii _ _ := rfl
  split x c y hc := by
    unfold asciiLower
    rw [map_append, map_cons, (toLower_break c).2 hc]
  free x h c hc := by
    obtain ⟨d, hd, rfl⟩ := mem_map.mp hc
    rw [(toLower_break d).1]
    exact h d hd
  ne_nil x h hnil := h (map_eq_nil_iff.mp hnil)

theorem validate_exact_select : Sound asciiLowercase "SELECT id FROM users;".toList := by
  refine (validate_exact (by decide +kernel)).mpr ⟨?_, ?_, ?_⟩
  · have hnone : ∀ kw ∈ deniedKeywords,
        ¬ kw <:+: asciiLowercase.lower (trim "SELECT id FROM users;".toList) := by
      decide +kernel
    exact fun kw hkw w _ hwithin => hnone kw hkw ((prefix_append kw [w]).isInfix.trans hwithin)
  · intro t ht
    have hlast : (words isWhitespace "SELECT id FROM users;".toList).getLast? =
        some "users;".toList := by decide +kernel
    rw [hlast, Option.some.injEq] at ht
    rw [← ht]
    decide +kernel
  · have hnone : ¬ "into".toList <:+:
        asciiLowercase.lower (trim "SELECT id FROM users;".toList) := by
      decide +kernel
    exact fun w _ hwithin => hnone ((prefix_append _ _).isInfix.trans hwithin)

def deleteBehindWith : Text := "WITH x AS (SELECT 1) DELETE\tFROM users".toList

theorem tab_hides_delete :
    validateReadonlySql asciiLowercase deleteBehindWith = .ok () ∧
      "DELETE".toList ∈ words isWhitespace deleteBehindWith ∧
      validateReadonlySql asciiLowercase (spaced deleteBehindWith) =
        .error "SQL keyword blocked: delete " ∧
      ¬ Sound asciiLowercase deleteBehindWith := by
  have hword : "DELETE".toList ∈ words isWhitespace deleteBehindWith := by decide +kernel
  refine ⟨by decide +kernel, hword, by decide +kernel, fun h => ?_⟩
  exact h.keywords _ hword (by decide +kernel)

end ContextDesk.ReadonlySql
