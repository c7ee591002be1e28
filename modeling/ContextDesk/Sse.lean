import ContextDesk.Lib.Text

/-!
# The line decoder of streaming bodies

`SseLineDecoder` keeps the raw bytes of the unfinished line between chunks; `push` takes one chunk
and gives the lines it completes, `finish` gives the unterminated rest. `decodeChunks` is what
every caller does with a stream: one `push` for each chunk, up to the first refusal, then `finish`.

What the decoder is for is said without chunks: `reference` cuts the whole stream at the line feeds
and decodes the pieces. `push_spec` relates one push to it, and `decodeChunks_eq_reference` a whole
run, for every way of cutting the stream.
-/

open List

namespace ContextDesk.Sse

open Lib Lib.Utf8

def defaultMaxBufferedLineBytes : Nat := 4 * 1024 * 1024

def lf : UInt8 := 0x0A

def cr : UInt8 := 0x0D

def decodeStrict (bytes : List UInt8) (what : String) : Outcome String :=
  match fromUtf8 bytes with
  | some s => .ok s
  | none =>
    .error s!"{what} was not valid UTF-8 ({utf8ErrorText bytes}) — refusing to silently substitute replacement characters"

/-- `line.pop()` when the last byte is a carriage return. -/
def stripCr (line : List UInt8) : List UInt8 :=
  if line.getLast? = some cr then line.dropLast else line

structure SseLineDecoder where
  pending : List UInt8
  maxBufferedLineBytes : Nat
  deriving DecidableEq

namespace SseLineDecoder

def withMaxBufferedLineBytes (maxBufferedLineBytes : Nat) : SseLineDecoder :=
  ⟨[], maxBufferedLineBytes⟩

def new : SseLineDecoder := withMaxBufferedLineBytes defaultMaxBufferedLineBytes

/-- The loop of `push`: the bytes left pending, and the lines or the refusal. -/
def pushLoop (max : Nat) (pending : List UInt8) (lines : List String) :
    List UInt8 × Outcome (List String) :=
  match _h : pending.findIdx? (· == lf) with
  | none =>
    if pending.length > max then
      (pending, .error s!"SSE line exceeded {max} bytes with no terminator — refusing to buffer further (malformed or oversized provider response)")
    else (pending, .ok lines)
  | some pos =>
    if pos > max then
      (pending, .error s!"SSE line exceeded {max} bytes — refusing to buffer further (malformed or oversized provider response)")
    else
      -- `drain(..=pos)`, then the line feed and one carriage return are popped
      match decodeStrict (stripCr (pending.take pos)) "SSE line" with
      | .error e => (pending.drop (pos + 1), .error e)
      | .ok line => pushLoop max (pending.drop (pos + 1)) (lines ++ [line])
  termination_by pending.length
  decreasing_by
    have hpos := (findIdx?_eq_some_iff_getElem.mp _h).1
    simp only [length_drop]
    omega

/-- The decoder after the chunk, and the lines the chunk completed. -/
def push (d : SseLineDecoder) (bytes : List UInt8) :
    SseLineDecoder × Outcome (List String) :=
  let r := pushLoop d.maxBufferedLineBytes (d.pending ++ bytes) []
  ({ d with pending := r.1 }, r.2)

def finish (d : SseLineDecoder) : Outcome (Option String) :=
  if d.pending = [] then .ok none
  else do
    let line ← decodeStrict d.pending "trailing SSE data"
    pure (some line)

/-- Push the chunks one by one, stop at the first refusal, and finish. -/
def decodeChunks (d : SseLineDecoder) : List (List UInt8) → Outcome (List String)
  | [] => do
    let trailing ← d.finish
    pure trailing.toList
  | chunk :: chunks => do
    let lines ← (d.push chunk).2
    let rest ← decodeChunks (d.push chunk).1 chunks
    pure (lines ++ rest)

end SseLineDecoder

/-! ## The reference decomposition -/

/-- The lines of a stream as bytes: what stands before each line feed, less one trailing carriage
return, and what follows the last line feed as it is, if anything does. -/
def contents (stream : List UInt8) : List (List UInt8) :=
  let pieces := stream.splitOn lf
  pieces.dropLast.map stripCr ++ (pieces.getLast?.filter (· ≠ [])).toList

def WithinBound (max : Nat) (stream : List UInt8) : Prop :=
  ∀ piece ∈ stream.splitOn lf, piece.length ≤ max

instance withinBoundDecidable (max : Nat) (stream : List UInt8) :
    Decidable (WithinBound max stream) :=
  inferInstanceAs (Decidable (∀ piece ∈ stream.splitOn lf, piece.length ≤ max))

/-- The texts of the lines of a stream, when no line is over the bound and each is UTF-8. -/
def reference (max : Nat) (stream : List UInt8) : Option (List String) :=
  if WithinBound max stream then (contents stream).mapM fromUtf8 else none

variable {max : Nat} {rest : List UInt8}

theorem withinBound_of_not_mem (h : lf ∉ rest) : WithinBound max rest ↔ rest.length ≤ max := by
  unfold WithinBound
  rw [splitOn_eq_singleton h, forall_mem_singleton]

variable {line : List UInt8}

theorem withinBound_line (h : lf ∉ line) :
    WithinBound max (line ++ lf :: rest) ↔ line.length ≤ max ∧ WithinBound max rest := by
  unfold WithinBound
  rw [splitOn_append_cons_self_of_not_mem h, forall_mem_cons]

theorem contents_of_not_mem (h : lf ∉ rest) : contents rest = if rest = [] then [] else [rest] := by
  unfold contents
  rw [splitOn_eq_singleton h]
  by_cases he : rest = [] <;> simp [he, Option.filter]

theorem contents_line (h : lf ∉ line) :
    contents (line ++ lf :: rest) = stripCr line :: contents rest := by
  unfold contents
  have hne : rest.splitOn lf ≠ [] := splitOn_ne_nil lf rest
  rw [splitOn_append_cons_self_of_not_mem h]
  simp [dropLast_cons_of_ne_nil hne, getLast?_cons, getLast?_eq_some_getLast hne]

theorem mapM_fromUtf8_eq_none {lines : List (List UInt8)} :
    lines.mapM fromUtf8 = none ↔ ∃ line ∈ lines, ¬ ∃ s, textBytes s = line := by
  induction lines with
  | nil => simp
  | cons line lines ih =>
    rw [mapM_cons, exists_mem_cons_iff, ← ih, ← fromUtf8_isSome]
    cases fromUtf8 line <;> cases lines.mapM fromUtf8 <;> simp

theorem reference_eq_none {stream : List UInt8} :
    reference max stream = none ↔
      (∃ line ∈ stream.splitOn lf, max < line.length) ∨
        ∃ line ∈ contents stream, ¬ ∃ s, textBytes s = line := by
  have hbound : (∃ line ∈ stream.splitOn lf, max < line.length) ↔ ¬ WithinBound max stream := by
    unfold WithinBound
    push Not
    rfl
  rw [hbound, ← mapM_fromUtf8_eq_none]
  unfold reference
  by_cases hb : WithinBound max stream <;> simp [hb]

theorem reference_of_not_mem (h : lf ∉ rest) :
    reference max rest =
      if rest.length ≤ max then
        if rest = [] then some [] else (fromUtf8 rest).map ([·])
      else none := by
  unfold reference
  simp only [withinBound_of_not_mem h, contents_of_not_mem h]
  by_cases he : rest = []
  · simp [he]
  · simp only [if_neg he, mapM_cons, mapM_nil]
    cases fromUtf8 rest <;> rfl

theorem reference_line (h : lf ∉ line) :
    reference max (line ++ lf :: rest) =
      if line.length ≤ max then
        (fromUtf8 (stripCr line)).bind fun s => (reference max rest).map (s :: ·)
      else none := by
  unfold reference
  simp only [withinBound_line h, contents_line h, mapM_cons]
  by_cases hl : line.length ≤ max
  · by_cases hr : WithinBound max rest
    · simp only [hl, hr, and_self, if_true]
      cases fromUtf8 (stripCr line) <;> cases (contents rest).mapM fromUtf8 <;> rfl
    · simp only [hl, hr, and_false, if_false, if_true, Option.map_none]
      cases fromUtf8 (stripCr line) <;> rfl
  · simp [hl]

theorem reference_over_bound (h : lf ∉ line) (hl : max < line.length) :
    reference max (line ++ rest) = none := by
  by_cases hr : lf ∈ rest
  · obtain ⟨a, b, rfl, ha⟩ := eq_append_cons_of_mem hr
    have hab : lf ∉ line ++ a := by simp [h, ha]
    rw [← append_assoc, reference_line hab, if_neg]
    simp only [length_append]
    omega
  · rw [reference_of_not_mem (by simp [h, hr]), if_neg]
    simp only [length_append]
    omega

/-! ## The decoder computes it -/

namespace SseLineDecoder

theorem decodeStrict_toOption (bytes : List UInt8) (what : String) :
    (decodeStrict bytes what).toOption = fromUtf8 bytes := by
  unfold decodeStrict
  cases fromUtf8 bytes <;> rfl

theorem take_findIdx? {pending : List UInt8} {pos : Nat}
    (h : pending.findIdx? (· == lf) = some pos) :
    lf ∉ pending.take pos ∧ pending = pending.take pos ++ lf :: pending.drop (pos + 1) := by
  obtain ⟨hlt, hp, hbefore⟩ := findIdx?_eq_some_iff_getElem.mp h
  constructor
  · intro hmem
    obtain ⟨i, hi, he⟩ := mem_take_iff_getElem.mp hmem
    exact hbefore i (by omega) (by simp [he])
  · have he : pending[pos] = lf := by simpa using hp
    rw [← he, getElem_cons_drop, take_append_drop]

/-- What the loop leaves behind: after a refusal no continuation of the stream can be read; else
the lines it gave are the first ones, and the rest is read from the bytes left pending. -/
structure PushSpec (max : Nat) (pending : List UInt8) (lines : List String)
    (r : List UInt8 × Outcome (List String)) : Prop where
  refused : ∀ e, r.2 = .error e → ∀ rest, reference max (pending ++ rest) = none
  left : ∀ given, r.2 = .ok given → lf ∉ r.1 ∧ r.1.length ≤ max
  given : ∀ given, r.2 = .ok given → ∀ rest,
    (reference max (pending ++ rest)).map (lines ++ ·) =
      (reference max (r.1 ++ rest)).map (given ++ ·)

theorem pushLoop_spec (max : Nat) (pending : List UInt8) (lines : List String) :
    PushSpec max pending lines (pushLoop max pending lines) := by
  fun_induction pushLoop max pending lines with
  | case1 pending lines hfind hover =>
    have hmem : lf ∉ pending := by
      intro hm
      simpa using findIdx?_eq_none_iff.mp hfind lf hm
    exact ⟨fun _ _ rest => reference_over_bound hmem hover, by simp, by simp⟩
  | case2 pending lines hfind hover =>
    have hmem : lf ∉ pending := by
      intro hm
      simpa using findIdx?_eq_none_iff.mp hfind lf hm
    refine ⟨by simp, fun _ _ => ⟨hmem, by simpa using hover⟩, ?_⟩
    intro given hg rest
    simp only [Except.ok.injEq] at hg
    rw [hg]
  | case3 pending lines pos hfind hover =>
    obtain ⟨hmem, hsplit⟩ := take_findIdx? hfind
    have hlt := (findIdx?_eq_some_iff_getElem.mp hfind).1
    refine ⟨fun _ _ rest => ?_, by simp, by simp⟩
    rw [hsplit, append_assoc]
    refine reference_over_bound hmem ?_
    rw [length_take]
    omega
  | case4 pending lines pos hfind hover e hdec =>
    obtain ⟨hmem, hsplit⟩ := take_findIdx? hfind
    refine ⟨fun _ _ rest => ?_, by simp, by simp⟩
    have hnone : fromUtf8 (stripCr (pending.take pos)) = none := by
      rw [← decodeStrict_toOption _ "SSE line", hdec]
      rfl
    rw [hsplit, append_assoc, cons_append, reference_line hmem, hnone]
    simp
  | case5 pending lines pos hfind hover line hdec ih =>
    obtain ⟨hmem, hsplit⟩ := take_findIdx? hfind
    have hline : fromUtf8 (stripCr (pending.take pos)) = some line := by
      rw [← decodeStrict_toOption _ "SSE line", hdec]
      rfl
    have hlen : (pending.take pos).length ≤ max := by
      rw [length_take]
      omega
    have hpeel : ∀ rest, reference max (pending ++ rest) =
        (reference max (pending.drop (pos + 1) ++ rest)).map (line :: ·) := by
      intro rest
      nth_rewrite 1 [hsplit]
      rw [append_assoc, cons_append, reference_line hmem, if_pos hlen, hline]
      rfl
    refine ⟨fun e he rest => ?_, ih.left, fun given hg rest => ?_⟩
    · rw [hpeel, ih.refused e he rest]
      rfl
    · rw [hpeel, ← ih.given given hg rest, Option.map_map]
      congr 1
      funext tail
      simp

theorem push_spec (d : SseLineDecoder) (bytes : List UInt8) :
    PushSpec d.maxBufferedLineBytes (d.pending ++ bytes) []
      ((d.push bytes).1.pending, (d.push bytes).2) :=
  pushLoop_spec _ _ _

theorem finish_spec {d : SseLineDecoder} (hmem : lf ∉ d.pending)
    (hlen : d.pending.length ≤ d.maxBufferedLineBytes) :
    (d.finish.map Option.toList).toOption = reference d.maxBufferedLineBytes d.pending := by
  rw [reference_of_not_mem hmem, if_pos hlen]
  unfold finish
  split
  · rfl
  · rw [← decodeStrict_toOption d.pending "trailing SSE data"]
    cases decodeStrict d.pending "trailing SSE data" <;> rfl

theorem decodeChunks_spec (chunks : List (List UInt8)) (d : SseLineDecoder)
    (hmem : lf ∉ d.pending) (hlen : d.pending.length ≤ d.maxBufferedLineBytes) :
    (d.decodeChunks chunks).toOption =
      reference d.maxBufferedLineBytes (d.pending ++ chunks.flatten) := by
  induction chunks generalizing d with
  | nil =>
    rw [flatten_nil, append_nil, ← finish_spec hmem hlen]
    unfold decodeChunks
    cases d.finish <;> rfl
  | cons chunk chunks ih =>
    have hspec := push_spec d chunk
    unfold decodeChunks
    rw [flatten_cons, ← append_assoc]
    cases hpush : (d.push chunk).2 with
    | error e => exact (hspec.refused e hpush chunks.flatten).symm
    | ok lines =>
      obtain ⟨hm, hl⟩ := hspec.left lines hpush
      have hgiven := hspec.given lines hpush chunks.flatten
      have hrest := ih (d.push chunk).1 hm hl
      simp only [nil_append, Option.map_id_fun', id] at hgiven
      rw [hgiven]
      change _ = Option.map _ (reference (d.push chunk).1.maxBufferedLineBytes _)
      rw [← hrest]
      cases (d.push chunk).1.decodeChunks chunks <;> rfl

/-- Every cutting of a stream gives the outcome of the reference, which fails exactly on a line
over the bound or a line that is not UTF-8. -/
theorem decodeChunks_eq_reference (max : Nat) (chunks : List (List UInt8)) :
    ((withMaxBufferedLineBytes max).decodeChunks chunks).toOption =
        reference max chunks.flatten ∧
      (((withMaxBufferedLineBytes max).decodeChunks chunks).toOption = none ↔
        (∃ line ∈ chunks.flatten.splitOn lf, max < line.length) ∨
          ∃ line ∈ contents chunks.flatten, ¬ ∃ s, textBytes s = line) := by
  have heq := decodeChunks_spec chunks (withMaxBufferedLineBytes max) (not_mem_nil)
    (Nat.zero_le _)
  refine ⟨heq, ?_⟩
  rw [heq]
  exact reference_eq_none

end SseLineDecoder

end ContextDesk.Sse
