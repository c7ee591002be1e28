import ContextDesk.FastTriage.Validate

/-!
# The wrappers of a response

`splitCompleteReasoningPrefix` and `normalizeKnownJsonWrapper` both take up to four reasoning blocks
off the front of a response; the second one then wants one object, bare or in a fence. The fast lane
runs one after the other and so takes up to eight blocks off, where the other lane takes four
(`wrappers_agree_iff`). An object that was taken out is taken out of itself.
-/

namespace ContextDesk

open Lib Lib.Text Lib.Str Lib.ByteIndex List

/-- `str::strip_prefix`. -/
def stripFront (front l : List Char) : Option (List Char) :=
  if front.isPrefixOf l then some (l.drop front.length) else none

/-- The texts before and after the first `part`: a `find`, and the slices at it. -/
def cutAt (part : String) (l : List Char) : Option (List Char × List Char) :=
  (seek (startsWith part) l).map fun p => (p.1, p.2.drop part.toList.length)

/-- The texts before and after the last `part`: a `rfind`, and the slices at it. -/
def cutAtLast (part : String) (l : List Char) : Option (List Char × List Char) :=
  (seek (part.toList.reverse.isPrefixOf ·) l.reverse).map fun p =>
    ((p.2.drop part.toList.length).reverse, p.1.reverse)

def REASONING_TAGS : List String := ["think", "analysis", "reasoning"]

def openTag (tag : String) : List Char := ("<" ++ tag ++ ">").toList

def closeTag (tag : String) : String := "</" ++ tag ++ ">"

/-! ## The two loops -/

/-- The loop of `split_complete_reasoning_prefix` over the tags: the block, and what follows it. -/
def splitTags : List String → List Char → Option (List Char × List Char)
  | [], _ => none
  | tag :: tags, trimmed =>
    match stripFront (openTag tag) trimmed with
    | none => splitTags tags trimmed
    | some body =>
      match cutAt (closeTag tag) body with
      | none => splitTags tags trimmed
      | some parts => some parts

def splitRounds : Nat → List Char → List Char → List Char × List Char
  | 0, reasoning, trimmed => (reasoning, trimmed)
  | n + 1, reasoning, trimmed =>
    match splitTags REASONING_TAGS trimmed with
    | none => (reasoning, trimmed)
    | some (block, rest) => splitRounds n (reasoning ++ block) (trim rest)

def splitCompleteReasoningPrefix (raw : List Char) : List Char × List Char :=
  splitRounds 4 [] (trim raw)

/-- The loop of `normalize_known_json_wrapper` over the tags: nothing where a block is not closed,
else what follows the block, if there is one. -/
def normalizeTags : List String → List Char → Option (Option (List Char))
  | [], _ => some none
  | tag :: tags, trimmed =>
    match stripFront (openTag tag) trimmed with
    | none => normalizeTags tags trimmed
    | some body => (cutAt (closeTag tag) body).map fun parts => some parts.2

def normalizeRounds : Nat → List Char → Option (List Char)
  | 0, trimmed => some trimmed
  | n + 1, trimmed =>
    match normalizeTags REASONING_TAGS trimmed with
    | none => none
    | some none => some trimmed
    | some (some rest) => normalizeRounds n (trim rest)

/-- `starts_with('{') && ends_with('}')`. -/
def isObject (l : List Char) : Bool := l.head? = some '{' && l.getLast? = some '}'

/-- What comes behind the reasoning: a fence with an object, or an object. -/
def objectIn (trimmed : List Char) : Option (List Char) :=
  match stripFront "```".toList trimmed with
  | none => if isObject trimmed then some trimmed else none
  | some fenceBody =>
    match afterFirst '\n' fenceBody with
    | none => none
    | some body =>
      match cutAtLast "```" body with
      | none => none
      | some (before, after) =>
        if trim after ≠ [] then none
        else if isObject (trim before) then some (trim before) else none

def normalizeKnownJsonWrapper (raw : List Char) : Option (List Char) :=
  (normalizeRounds 4 (trim raw)).bind objectIn

def wrapperReader : TerminalReader where
  splitCompleteReasoningPrefix raw :=
    ((String.ofList (splitCompleteReasoningPrefix raw.toList).1),
      String.ofList (splitCompleteReasoningPrefix raw.toList).2)
  normalizeKnownJsonWrapper raw := (normalizeKnownJsonWrapper raw.toList).map String.ofList

/-! ## Tags -/

variable {rest : List Char}

theorem stripFront_eq_some {front l : List Char} :
    stripFront front l = some rest ↔ l = front ++ rest := by
  unfold stripFront
  constructor
  · intro h
    split at h
    · rename_i hfront
      obtain ⟨tail, rfl⟩ := List.isPrefixOf_iff_prefix.mp hfront
      rw [drop_left, Option.some.injEq] at h
      rw [h]
    · cases h
  · rintro rfl
    rw [if_pos (List.isPrefixOf_iff_prefix.mpr (prefix_append _ _)), drop_left]

theorem length_of_cutAt {part : String} {l before after : List Char}
    (h : cutAt part l = some (before, after)) : after.length ≤ l.length := by
  obtain ⟨⟨front, here⟩, hseek, heq⟩ := Option.map_eq_some_iff.mp h
  rw [seek_append hseek]
  cases heq
  rw [length_drop, length_append]
  dsimp only
  omega

theorem openTag_eq (tag : String) : openTag tag = '<' :: (tag.toList ++ ['>']) := by
  simp [openTag]

variable {tags : List String} {trimmed : List Char}

theorem splitTags_some {block : List Char} (h : splitTags tags trimmed = some (block, rest)) :
    trimmed.head? = some '<' ∧ rest.length < trimmed.length := by
  induction tags with
  | nil => cases h
  | cons tag tags ih =>
    unfold splitTags at h
    split at h
    · exact ih h
    · rename_i body hfront
      rw [stripFront_eq_some, openTag_eq] at hfront
      split at h
      · exact ih h
      · rename_i parts hcut
        cases h
        have hlength := length_of_cutAt hcut
        rw [hfront]
        refine ⟨rfl, ?_⟩
        rw [length_append, length_cons]
        omega

theorem splitTags_of_strip (h : ∀ tag ∈ tags, stripFront (openTag tag) trimmed = none) :
    splitTags tags trimmed = none := by
  induction tags with
  | nil => rfl
  | cons tag tags ih =>
    unfold splitTags
    rw [h tag mem_cons_self]
    exact ih fun tag htag => h tag (mem_cons_of_mem _ htag)

theorem normalizeTags_of_head (h : trimmed.head? ≠ some '<') :
    normalizeTags tags trimmed = some none := by
  induction tags with
  | nil => rfl
  | cons tag tags ih =>
    unfold normalizeTags
    split
    · exact ih
    · rename_i body hfront
      rw [stripFront_eq_some, openTag_eq] at hfront
      rw [hfront] at h
      exact absurd rfl h

def TagsApart (tags : List String) : Prop :=
  tags.Pairwise fun tag tag' => ¬ openTag tag <+: openTag tag' ∧ ¬ openTag tag' <+: openTag tag

theorem strip_apart {tag tag' : String}
    (h : ¬ openTag tag <+: openTag tag' ∧ ¬ openTag tag' <+: openTag tag) {body : List Char}
    (hfront : stripFront (openTag tag) trimmed = some body) :
    stripFront (openTag tag') trimmed = none := by
  cases hfront' : stripFront (openTag tag') trimmed with
  | none => rfl
  | some body' =>
    rw [stripFront_eq_some] at hfront hfront'
    have hpre : openTag tag <+: trimmed := ⟨body, hfront.symm⟩
    have hpre' : openTag tag' <+: trimmed := ⟨body', hfront'.symm⟩
    rcases prefix_or_prefix_of_prefix hpre hpre' with hp | hp
    · exact absurd hp h.1
    · exact absurd hp h.2

/-- Where one loop finds a block so does the other; where it finds none, the other one stops or
gives up before a tag. -/
theorem normalizeTags_eq (hapart : TagsApart tags) (trimmed : List Char) :
    (∀ block rest, splitTags tags trimmed = some (block, rest) →
      normalizeTags tags trimmed = some (some rest)) ∧
    (splitTags tags trimmed = none → normalizeTags tags trimmed = some none ∨
      (normalizeTags tags trimmed = none ∧ trimmed.head? = some '<')) := by
  induction tags with
  | nil => exact ⟨fun _ _ h => (by cases h), fun _ => .inl rfl⟩
  | cons tag tags ih =>
    obtain ⟨hhead, htail⟩ := pairwise_cons.mp hapart
    unfold splitTags normalizeTags
    cases hfront : stripFront (openTag tag) trimmed with
    | none => exact ih htail
    | some body =>
      dsimp only
      have hnone : splitTags tags trimmed = none :=
        splitTags_of_strip fun tag' htag' => strip_apart (hhead tag' htag') hfront
      have hlt : trimmed.head? = some '<' := by
        rw [stripFront_eq_some, openTag_eq] at hfront
        rw [hfront]
        rfl
      cases hcut : cutAt (closeTag tag) body with
      | none =>
        refine ⟨fun block rest h => ?_, fun _ => .inr ⟨rfl, hlt⟩⟩
        rw [hnone] at h
        cases h
      | some parts =>
        refine ⟨fun block rest h => ?_, fun h => (by cases h)⟩
        cases h
        rfl

theorem reasoningTags_apart : TagsApart REASONING_TAGS := by
  unfold TagsApart REASONING_TAGS
  simp only [openTag_eq]
  decide

/-! ## Rounds -/

/-- What is left when so many blocks have been taken off, if there are so many. -/
def unwrapped : Nat → List Char → Option (List Char)
  | 0, trimmed => some trimmed
  | n + 1, trimmed => (splitTags REASONING_TAGS trimmed).bind fun parts => unwrapped n (trim parts.2)

theorem exists_unwrapped (trimmed : List Char) :
    ∃ n rest, unwrapped n trimmed = some rest ∧ splitTags REASONING_TAGS rest = none := by
  induction hlength : trimmed.length using Nat.strongRecOn generalizing trimmed with
  | ind size ih =>
    cases hsplit : splitTags REASONING_TAGS trimmed with
    | none => exact ⟨0, trimmed, rfl, hsplit⟩
    | some parts =>
      have hshort := (splitTags_some hsplit).2
      have htrim := (trim_sublist parts.2).length_le
      obtain ⟨n, rest, hrest, hnone⟩ := ih _ (by omega) (trim parts.2) rfl
      refine ⟨n + 1, rest, ?_, hnone⟩
      rw [unwrapped, hsplit, Option.bind_some, hrest]

variable {n : Nat}

theorem unwrapped_succ (h : unwrapped (n + 1) trimmed = some rest) :
    ∃ block after, splitTags REASONING_TAGS trimmed = some (block, after) ∧
      unwrapped n (trim after) = some rest := by
  obtain ⟨⟨block, after⟩, hsplit, hrest⟩ := Option.bind_eq_some_iff.mp h
  exact ⟨block, after, hsplit, hrest⟩

variable {k : Nat} {reasoning : List Char}

theorem splitRounds_of_le (h : unwrapped k trimmed = some rest)
    (hnone : splitTags REASONING_TAGS rest = none) (hk : k ≤ n) :
    (splitRounds n reasoning trimmed).2 = rest := by
  induction k generalizing n reasoning trimmed with
  | zero =>
    cases h
    cases n with
    | zero => rfl
    | succ n =>
      unfold splitRounds
      rw [hnone]
  | succ k ih =>
    obtain ⟨block, after, hsplit, hrest⟩ := unwrapped_succ h
    obtain ⟨n, rfl⟩ : ∃ m, n = m + 1 := ⟨n - 1, by omega⟩
    unfold splitRounds
    rw [hsplit]
    exact ih hrest (by omega)

theorem splitRounds_of_ge (h : unwrapped k trimmed = some rest) (hk : n ≤ k) :
    unwrapped (k - n) (splitRounds n reasoning trimmed).2 = some rest := by
  induction n generalizing k reasoning trimmed with
  | zero => exact h
  | succ n ih =>
    obtain ⟨k, rfl⟩ : ∃ m, k = m + 1 := ⟨k - 1, by omega⟩
    obtain ⟨block, after, hsplit, hrest⟩ := unwrapped_succ h
    unfold splitRounds
    rw [hsplit, Nat.add_sub_add_right]
    exact ih hrest (by omega)

theorem objectIn_of_head (h : trimmed.head? = some '<') : objectIn trimmed = none := by
  unfold objectIn
  split
  · rw [isObject, h]
    rfl
  · rename_i body hfront
    rw [stripFront_eq_some] at hfront
    rw [hfront] at h
    cases h

theorem normalizeRounds_of_le (h : unwrapped k trimmed = some rest)
    (hnone : splitTags REASONING_TAGS rest = none) (hk : k ≤ n) :
    (normalizeRounds n trimmed).bind objectIn = objectIn rest := by
  induction k generalizing n trimmed with
  | zero =>
    cases h
    cases n with
    | zero => rfl
    | succ n =>
      unfold normalizeRounds
      rcases (normalizeTags_eq reasoningTags_apart _).2 hnone with hplain | ⟨hopen, hlt⟩
      · rw [hplain]
        rfl
      · rw [hopen, objectIn_of_head hlt]
        rfl
  | succ k ih =>
    obtain ⟨block, after, hsplit, hrest⟩ := unwrapped_succ h
    obtain ⟨n, rfl⟩ : ∃ m, n = m + 1 := ⟨n - 1, by omega⟩
    unfold normalizeRounds
    rw [(normalizeTags_eq reasoningTags_apart trimmed).1 block after hsplit]
    exact ih hrest (by omega)

theorem normalizeRounds_of_lt (h : unwrapped k trimmed = some rest) (hk : n < k) :
    (normalizeRounds n trimmed).bind objectIn = none := by
  induction n generalizing k trimmed with
  | zero =>
    obtain ⟨k, rfl⟩ : ∃ m, k = m + 1 := ⟨k - 1, by omega⟩
    obtain ⟨block, after, hsplit, -⟩ := unwrapped_succ h
    exact objectIn_of_head (splitTags_some hsplit).1
  | succ n ih =>
    obtain ⟨k, rfl⟩ : ∃ m, k = m + 1 := ⟨k - 1, by omega⟩
    obtain ⟨block, after, hsplit, hrest⟩ := unwrapped_succ h
    unfold normalizeRounds
    rw [(normalizeTags_eq reasoningTags_apart trimmed).1 block after hsplit]
    exact ih hrest (by omega)

theorem splitRounds_trimmed (h : trim trimmed = trimmed) :
    trim (splitRounds n reasoning trimmed).2 = (splitRounds n reasoning trimmed).2 := by
  induction n generalizing reasoning trimmed with
  | zero => exact h
  | succ n ih =>
    unfold splitRounds
    split
    · exact h
    · exact ih (trim_trim _)

theorem normalize_cases {raw : List Char} (h : unwrapped k (trim raw) = some rest)
    (hnone : splitTags REASONING_TAGS rest = none) :
    normalizeKnownJsonWrapper raw = (if k ≤ 4 then objectIn rest else none) ∧
    normalizeKnownJsonWrapper (splitCompleteReasoningPrefix raw).2 =
      (if k ≤ 8 then objectIn rest else none) := by
  unfold normalizeKnownJsonWrapper splitCompleteReasoningPrefix
  rw [splitRounds_trimmed (trim_trim raw)]
  by_cases h4 : k ≤ 4
  · have hsplit : (splitRounds 4 [] (trim raw)).2 = rest := splitRounds_of_le h hnone h4
    rw [if_pos h4, if_pos (by omega), hsplit]
    exact ⟨normalizeRounds_of_le h hnone h4, normalizeRounds_of_le rfl hnone (Nat.zero_le 4)⟩
  · have hsplit : unwrapped (k - 4) (splitRounds 4 [] (trim raw)).2 = some rest :=
      splitRounds_of_ge h (by omega)
    rw [if_neg h4]
    refine ⟨normalizeRounds_of_lt h (by omega), ?_⟩
    by_cases h8 : k ≤ 8
    · rw [if_pos h8]
      exact normalizeRounds_of_le hsplit hnone (by omega)
    · rw [if_neg h8]
      exact normalizeRounds_of_lt hsplit (by omega)

/-! ## Objects -/

variable {object : List Char}

theorem objectIn_isObject (h : objectIn trimmed = some object) : isObject object = true := by
  unfold objectIn at h
  split at h
  · split at h
    · cases h
      assumption
    · cases h
  · split at h
    · cases h
    · split at h
      · cases h
      · split at h
        · cases h
        · split at h
          · cases h
            assumption
          · cases h

theorem normalize_isObject {raw : List Char} (h : normalizeKnownJsonWrapper raw = some object) :
    isObject object = true := by
  obtain ⟨trimmed, -, hobject⟩ := Option.bind_eq_some_iff.mp h
  exact objectIn_isObject hobject

theorem trim_object (h : isObject object = true) : trim object = object := by
  rw [isObject, Bool.and_eq_true, decide_eq_true_eq, decide_eq_true_eq] at h
  obtain ⟨hhead, hlast⟩ := h
  have hstart : trimStart object = object := by
    cases object with
    | nil => rfl
    | cons c l =>
      cases hhead
      exact dropWhile_cons_of_neg (by decide)
  have hend : trimEnd object = object := by
    unfold trimEnd
    rw [← head?_reverse] at hlast
    cases hrev : object.reverse with
    | nil => rw [reverse_eq_nil_iff.mp hrev]; rfl
    | cons c l =>
      rw [hrev] at hlast
      cases hlast
      rw [dropWhile_cons_of_neg (by decide), ← hrev, reverse_reverse]
  rw [trim, hstart, hend]

theorem normalize_object (h : isObject object = true) :
    normalizeKnownJsonWrapper object = some object := by
  have hhead : object.head? = some '{' := by
    rw [isObject, Bool.and_eq_true, decide_eq_true_eq] at h
    exact h.1
  have hne : object.head? ≠ some '<' := by
    rw [hhead]
    decide
  unfold normalizeKnownJsonWrapper normalizeRounds
  rw [trim_object h, normalizeTags_of_head hne]
  unfold objectIn
  rw [Option.bind_some]
  split
  · rw [if_pos h]
  · rename_i body hfront
    rw [stripFront_eq_some] at hfront
    rw [hfront] at hhead
    cases hhead

/-! ## The two lanes -/

/-- Behind five to eight complete blocks, and no more, there is an object. -/
def ObjectBehindBlocks (raw : String) : Prop :=
  ∃ k rest, 5 ≤ k ∧ k ≤ 8 ∧ unwrapped k (trim raw.toList) = some rest ∧
    splitTags REASONING_TAGS rest = none ∧ (objectIn rest).isSome = true

theorem isBlank_object (h : isObject object = true) : isBlank (String.ofList object) = false := by
  unfold isBlank
  rw [String.toList_ofList, trim_object h, isEmpty_eq_false_iff]
  rintro rfl
  cases h

theorem typedObject_eq (raw finishReason : String) (toolCalls : List FastTriageToolCallRef) :
    (FastTriageTerminal.fromRaw wrapperReader raw finishReason toolCalls).typedObject =
      (normalizeKnownJsonWrapper (splitCompleteReasoningPrefix raw.toList).2).map
        String.ofList := by
  unfold FastTriageTerminal.fromRaw wrapperReader
  dsimp only
  by_cases hblank :
      isBlank (String.ofList (splitCompleteReasoningPrefix raw.toList).2) = true
  · rw [if_pos hblank]
    unfold isBlank at hblank
    rw [String.toList_ofList, List.isEmpty_iff] at hblank
    unfold normalizeKnownJsonWrapper
    rw [hblank]
    rfl
  · rw [if_neg hblank, String.toList_ofList]
    cases hobject : normalizeKnownJsonWrapper (splitCompleteReasoningPrefix raw.toList).2 with
    | none => rfl
    | some object =>
      have h := isBlank_object (normalize_isObject hobject)
      simp only [Option.map_some, h, Bool.false_eq_true, if_false]

/-- The lanes take the same object out of a response, unless it has five to eight blocks before
its object; an object is taken out of itself. -/
theorem wrappers_agree_iff (raw finishReason : String) (toolCalls : List FastTriageToolCallRef) :
    ((FastTriageTerminal.fromRaw wrapperReader raw finishReason toolCalls).typedObject =
        wrapperReader.normalizeKnownJsonWrapper raw ↔ ¬ ObjectBehindBlocks raw) ∧
    ∀ object, wrapperReader.normalizeKnownJsonWrapper raw = some object →
      wrapperReader.normalizeKnownJsonWrapper object = some object := by
  constructor
  · rw [typedObject_eq]
    unfold wrapperReader
    dsimp only
    constructor
    · rintro heq ⟨k, rest, h5, h8, hrest, hnone, hobject⟩
      obtain ⟨hraw, hvisible⟩ := normalize_cases hrest hnone
      rw [hraw, hvisible, if_pos h8, if_neg (by omega), Option.map_none,
        Option.map_eq_none_iff] at heq
      rw [heq] at hobject
      cases hobject
    · intro h
      obtain ⟨k, rest, hrest, hnone⟩ := exists_unwrapped (trim raw.toList)
      obtain ⟨hraw, hvisible⟩ := normalize_cases hrest hnone
      rw [hraw, hvisible]
      by_cases h4 : k ≤ 4
      · rw [if_pos h4, if_pos (by omega)]
      · rw [if_neg h4]
        by_cases h8 : k ≤ 8
        · rw [if_pos h8]
          cases hobject : objectIn rest with
          | none => rfl
          | some object =>
            exact absurd ⟨k, rest, by omega, h8, hrest, hnone, by rw [hobject]; rfl⟩ h
        · rw [if_neg h8]
  · intro object h
    obtain ⟨l, hl, rfl⟩ := Option.map_eq_some_iff.mp h
    unfold wrapperReader
    dsimp only
    rw [String.toList_ofList, normalize_object (normalize_isObject hl)]
    rfl

def fiveBlocks : String := "<think></think><think></think><think></think><think></think><think></think>{}"

/-- The fast lane takes the object out, the other lane does not. -/
theorem five_blocks_split_lanes :
    (FastTriageTerminal.fromRaw wrapperReader fiveBlocks "stop" []).typedObject =
      some "{}" ∧
    wrapperReader.normalizeKnownJsonWrapper fiveBlocks = none := by
  decide +kernel

end ContextDesk
