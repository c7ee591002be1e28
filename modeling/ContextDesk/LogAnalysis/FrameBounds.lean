import ContextDesk.Lib.ByteIndex
import ContextDesk.LogAnalysis.FrameMemory
import ContextDesk.LogAnalysis.FrameRuns

/-!
# How large a record grows

The bounds of the framer are tested after a line has been appended. A record that `startNew` has
just begun with one line is not tested, so a single line may be larger than all the bytes allowed
(its length is the reader's to bound). `PushShape` names the three ways a push goes, `Bounded` is
the invariant of the open record: unless it is marked, it is within the bounds or its only line is
the one that began it.
-/

namespace ContextDesk.LogAnalysis.LogicalRecordFramer

open Lib Lib.Text Lib.Str Lib.ByteIndex Framing List

/-- The open record is larger than a bound allows. -/
def exceeds (s : LogicalRecordFramer) : Bool :=
  (bytes s.pending).length > maxLogicalRecordBytes ||
    s.pendingLines > maxPhysicalLinesPerRecord || s.jsonDepth > maxJsonFramingDepth

/-! ## The three shapes of a push -/

variable {s : LogicalRecordFramer}

theorem feedJson_blank (hescape : s.jsonEscape = false) (hstring : s.jsonInString = false)
    {blank : List Char} (hblank : blank.all isWhitespace) : s.feedJsonLine blank = s := by
  unfold feedJsonLine
  induction blank with
  | nil => rfl
  | cons c blank ih =>
    rw [all_cons, Bool.and_eq_true] at hblank
    have hother : ∀ d : Char, isWhitespace d = false → (c == d) = false := by
      intro d hd
      rw [beq_eq_false_iff_ne]
      rintro rfl
      rw [hd] at hblank
      exact absurd hblank.1 (by decide)
    have hc : s.feedJson c = s := by
      unfold feedJson
      simp [hescape, hstring, hother '"' (by decide), hother '{' (by decide),
        hother '}' (by decide)]
    rw [foldl_cons, hc]
    exact ih hblank.2

/-- A record begins with one line, unmarked, and at most one brace deep. -/
theorem startNew_within (s : LogicalRecordFramer) (line : List Char) :
    (s.startNew line).pendingLines = 1 ∧ (s.startNew line).overBound = false ∧
      ¬ (s.startNew line).jsonDepth > maxJsonFramingDepth := by
  unfold startNew
  by_cases hj : looksLikeMultilineJsonStart line = true
  · simp only [hj, if_true]
    generalize hu : ({ s with
        pending := line, pendingLines := 1, overBound := false
        csv := if looksLikeCsvRecord line then ({} : CsvQuoteScanner).feedStr line else {}
        csvRecord := looksLikeCsvRecord line
        criPartialOpen := criIsPartial line
        jsonDepth := 0, jsonInString := false, jsonEscape := false } : LogicalRecordFramer) = u
    obtain ⟨-, -, -, hover, hlines⟩ := feedJsonLine_kept u line
    refine ⟨by rw [hlines, ← hu], by rw [hover, ← hu], ?_⟩
    obtain ⟨blank, htrim, hblank⟩ := json_start_line hj
    have hsplit : line = line.takeWhile isWhitespace ++ '{' :: blank := by
      rw [← htrim]
      exact (takeWhile_append_dropWhile).symm
    have hfeed : u.feedJsonLine line = u.feedJson '{' := by
      have hbrace : u.feedJsonLine line = ((u.feedJsonLine (line.takeWhile isWhitespace)).feedJson
          '{').feedJsonLine blank := by
        conv_lhs => rw [hsplit]
        unfold feedJsonLine
        rw [foldl_append, foldl_cons]
      rw [hbrace, feedJson_blank (by rw [← hu]) (by rw [← hu]) all_takeWhile,
        feedJson_blank _ _ hblank]
      · rw [← hu]
        rfl
      · rw [← hu]
        rfl
    rw [hfeed, ← hu]
    show ¬ (0 : Int32) + 1 > maxJsonFramingDepth
    decide
  · simp only [hj, Bool.false_eq_true, if_false]
    exact ⟨trivial, trivial, by decide⟩

/-- What a push leaves, and what it gives: a record is begun after what was open has been emitted,
the line is appended and the record tested, or the line closes the record it is appended to. -/
inductive PushShape (s : LogicalRecordFramer) (line : List Char) :
    LogicalRecordFramer × Option FramedRecord → Prop where
  | started (truncated : Bool) : truncated = s.overBound → PushShape s line
      ((s.takePending false truncated).1.startNew line, (s.takePending false truncated).2)
  | appended (t : LogicalRecordFramer) : s.overBound = false →
      t.pending = s.pending ++ s.joined line → t.pendingLines = s.pendingLines + 1 →
      t.overBound = false → PushShape s line (t.closeIfOverBoundIncluding, none)
  | closed (t : LogicalRecordFramer) : s.overBound = false →
      t.pending = s.pending ++ s.joined line → line ≠ [] → t.overBound = false →
      (t.jsonDepth = s.jsonDepth ∨ t.jsonDepth = 0) →
      PushShape s line (t.takePending true false)

theorem pushLine_shape (s : LogicalRecordFramer) (physical : PhysicalLine) :
    PushShape s (strippedLine physical) (s.pushLine physical) := by
  unfold pushLine
  simp only
  split
  · rename_i hover
    exact .started true hover.symm
  rename_i hover
  rw [Bool.not_eq_true] at hover
  split
  · rename_i hopen
    split
    · rename_i hclosed
      refine .closed (s.appendLine (strippedLine physical)) hover rfl (fun hnil => ?_) hover
        (.inl rfl)
      -- an empty line closes no quote
      have hstill : (s.appendLine []).csv.isOpen = s.csv.isOpen :=
        appendLine_csv_isOpen not_mem_nil
      rw [hnil, hstill, hopen] at hclosed
      cases hclosed
    · exact .appended _ hover rfl rfl hover
  split
  · split
    · rename_i hfull
      refine .closed { s.appendLine (strippedLine physical) with criPartialOpen := false } hover rfl
        (fun hnil => ?_) hover (.inl rfl)
      rw [hnil] at hfull
      exact absurd hfull (by decide)
    · exact .appended _ hover rfl rfl hover
  split
  · rename_i hjson
    obtain ⟨-, -, -, hkept, hlines⟩ :=
      feedJsonLine_kept (s.appendLine (strippedLine physical)) (strippedLine physical)
    have hpending : ((s.appendLine (strippedLine physical)).feedJsonLine
        (strippedLine physical)).pending = s.pending ++ s.joined (strippedLine physical) := by
      rw [feedJsonLine_pending, appendLine_pending]
    split
    · rename_i hzero
      refine .closed _ hover hpending (fun hnil => ?_) (hkept.trans hover) (.inr hzero)
      rw [hnil] at hzero
      have hzero : s.jsonDepth = 0 := hzero
      rw [hzero] at hjson
      exact absurd hjson (by decide)
    · exact .appended _ hover hpending hlines (hkept.trans hover)
  split
  · rename_i hnil
    have htake : s.takePending false false = (s, none) := if_pos hnil
    have hstart : PushShape s (strippedLine physical)
        ((s.takePending false false).1.startNew (strippedLine physical),
          (s.takePending false false).2) := .started false hover.symm
    rwa [htake] at hstart
  split
  · exact .appended _ hover rfl rfl hover
  · exact .started false hover.symm

/-! ## The invariant -/

/-- A text of so many bytes, two lines of it and their separators apart. -/
def TwoLinesOver (lines : List (List Char)) (text : List Char) : Prop :=
  ∃ two, List.Sublist two lines ∧ two.length ≤ 2 ∧
    (bytes text).length ≤ maxLogicalRecordBytes + (two.map fun l => (bytes l).length + 1).sum

/-- The open record with the lines it owes: within the bounds unless it is marked or has just
begun, and over them by two lines at most. -/
structure Bounded (s : LogicalRecordFramer) (owed : List (List Char)) : Prop where
  joined : (fromFirst owed).length ≤ s.pendingLines
  lines : s.pendingLines ≤ maxPhysicalLinesPerRecord + 1
  size : TwoLinesOver (fromFirst owed) s.pending
  unmarked : s.overBound = false → s.pendingLines ≤ maxPhysicalLinesPerRecord ∧
    ¬ s.jsonDepth > maxJsonFramingDepth ∧
    ((bytes s.pending).length ≤ maxLogicalRecordBytes ∨
      s.pendingLines = 1 ∧ fromFirst owed = [s.pending])

theorem length_fromFirst_concat (owed : List (List Char)) (line : List Char) :
    (fromFirst (owed ++ [line])).length ≤ (fromFirst owed).length + 1 := by
  rw [fromFirst_concat]
  split
  · unfold fromFirst
    exact Nat.le_trans (dropWhile_sublist _).length_le (by simp)
  · rw [length_append, length_singleton]

theorem twoLinesOver_single (line : List Char) : TwoLinesOver (fromFirst [line]) line := by
  cases line with
  | nil => exact ⟨[], nil_sublist _, by simp, by simp [bytes]⟩
  | cons c line =>
    refine ⟨[c :: line], List.Sublist.refl _, by simp, ?_⟩
    simp only [map_cons, map_nil, sum_cons, sum_nil]
    omega

variable {owed : List (List Char)}

theorem Bounded.append (h : Bounded s owed) (howes : Owes s owed) (hover : s.overBound = false)
    (line : List Char) :
    TwoLinesOver (fromFirst (owed ++ [line])) (s.pending ++ s.joined line) := by
  rw [fromFirst_concat]
  split
  · rename_i hnil
    have hpending : s.pending = [] := howes.pending.trans (joinLines_fromFirst_eq_nil.mpr hnil)
    have htext : s.pending ++ s.joined line = line := by
      unfold LogicalRecordFramer.joined
      rw [if_pos hpending, hpending, nil_append]
    rw [htext]
    exact twoLinesOver_single line
  · have hlength : (bytes (s.pending ++ s.joined line)).length ≤
        (bytes s.pending).length + ((bytes line).length + 1) := by
      have hfeed : '\n'.utf8Size = 1 := rfl
      unfold LogicalRecordFramer.joined
      split <;> simp only [length_bytes, byteLen_append, byteLen_cons] <;> omega
    rcases (h.unmarked hover).2.2 with hsize | ⟨-, honly⟩
    · refine ⟨[line], sublist_append_right _ _, by simp, ?_⟩
      simp only [map_cons, map_nil, sum_cons, sum_nil]
      omega
    · rw [honly]
      refine ⟨[s.pending, line], List.Sublist.refl _, by simp, ?_⟩
      simp only [map_cons, map_nil, sum_cons, sum_nil]
      omega

theorem bounded_startNew (s : LogicalRecordFramer) {line : List Char}
    (h : fromFirst owed = fromFirst [line]) : Bounded (s.startNew line) owed := by
  obtain ⟨hlines, -, hdepth⟩ := startNew_within s line
  have hjoined : (fromFirst [line]).length ≤ 1 := (dropWhile_sublist _).length_le
  refine ⟨by rw [hlines, h]; exact hjoined, by rw [hlines]; decide, ?_,
    fun _ => ⟨by rw [hlines]; decide, hdepth, ?_⟩⟩
  · rw [startNew_pending, h]
    exact twoLinesOver_single line
  · rw [startNew_pending, hlines, h]
    cases line with
    | nil => exact .inl (by decide)
    | cons c line => exact .inr ⟨rfl, rfl⟩

theorem exceeds_eq_false : s.exceeds = false ↔
    (bytes s.pending).length ≤ maxLogicalRecordBytes ∧
      s.pendingLines ≤ maxPhysicalLinesPerRecord ∧ ¬ s.jsonDepth > maxJsonFramingDepth := by
  unfold exceeds
  simp only [Bool.or_eq_false_iff, decide_eq_false_iff_not, and_assoc, gt_iff_lt, Nat.not_lt]

/-- The test after an append marks exactly the records over a bound. -/
theorem closeIfOverBoundIncluding_eq (hover : s.overBound = false) :
    s.closeIfOverBoundIncluding = { s with overBound := s.exceeds } := by
  unfold closeIfOverBoundIncluding
  change (if s.exceeds = true then _ else _) = _
  cases he : s.exceeds with
  | true => rfl
  | false =>
    show s = { s with overBound := false }
    rw [← hover]

def RecordBounded (r : FramedRecord) : Prop :=
  (recordLines r).length ≤ maxPhysicalLinesPerRecord + 1 ∧ TwoLinesOver (recordLines r) r.text

theorem Bounded.push (h : Bounded s owed) (howes : Owes s owed) (physical : PhysicalLine) :
    Bounded (s.pushLine physical).1
        (owedAfter owed (strippedLine physical) (s.pushLine physical).2) ∧
      ∀ r, (s.pushLine physical).2 = some r → RecordBounded r := by
  have hrecord := (howes.push physical).2
  have hshape := pushLine_shape s physical
  generalize strippedLine physical = line at hrecord hshape ⊢
  generalize s.pushLine physical = result at hrecord hshape ⊢
  cases hshape with
  | started truncated _ =>
    by_cases hnil : s.pending = []
    · have htake : s.takePending false truncated = (s, none) := if_pos hnil
      rw [htake]
      refine ⟨bounded_startNew s ?_, by simp⟩
      -- what was owed were empty lines
      have howed : fromFirst owed = [] := joinLines_fromFirst_eq_nil.mp (howes.pending ▸ hnil)
      show fromFirst (owed ++ [line]) = _
      rw [fromFirst_concat, if_pos howed]
    · have htake : s.takePending false truncated =
          ({ s with pending := [], pendingLines := 0 }, some ⟨s.pending, false, truncated⟩) :=
        if_neg hnil
      rw [htake] at hrecord ⊢
      refine ⟨bounded_startNew { s with pending := [], pendingLines := 0 } rfl, ?_⟩
      intro r hr
      have hlines := hrecord r hr
      obtain rfl := Option.some.inj hr
      simp only [Bool.false_eq_true, if_false, append_nil] at hlines
      refine ⟨?_, ?_⟩
      · rw [hlines]
        exact Nat.le_trans h.joined h.lines
      · rw [hlines]
        exact h.size
  | appended t hover hpending hcount htover =>
    refine ⟨?_, by simp⟩
    have hjoined := length_fromFirst_concat owed line
    have hs := h.joined
    have hlines := (h.unmarked hover).1
    rw [closeIfOverBoundIncluding_eq htover]
    refine ⟨?_, ?_, ?_, fun hmark => ?_⟩
    · show (fromFirst (owed ++ [line])).length ≤ t.pendingLines
      omega
    · show t.pendingLines ≤ _
      omega
    · show TwoLinesOver (fromFirst (owed ++ [line])) t.pending
      rw [hpending]
      exact h.append howes hover line
    · obtain ⟨hbytes, hcount, hdepth⟩ := exceeds_eq_false.mp hmark
      exact ⟨hcount, hdepth, .inl hbytes⟩
  | closed t hover hpending hne htover hdepth =>
    have htext : t.pending ≠ [] := by
      rw [hpending]
      unfold LogicalRecordFramer.joined
      split
      · simp [hne]
      · simp
    have htake : t.takePending true false =
        ({ t with pending := [], pendingLines := 0 }, some ⟨t.pending, true, false⟩) :=
      if_neg htext
    obtain ⟨hlines, hjson, -⟩ := h.unmarked hover
    rw [htake] at hrecord ⊢
    refine ⟨⟨Nat.zero_le _, Nat.zero_le _, ⟨[], nil_sublist _, by simp, by simp [bytes]⟩,
      fun _ => ⟨Nat.zero_le _, ?_, .inl (Nat.zero_le _)⟩⟩, ?_⟩
    · show ¬ t.jsonDepth > maxJsonFramingDepth
      rcases hdepth with hdepth | hdepth <;> rw [hdepth]
      · exact hjson
      · decide
    · intro r hr
      have hrlines := hrecord r hr
      obtain rfl := Option.some.inj hr
      simp only [if_true] at hrlines
      have hjoined := length_fromFirst_concat owed line
      have hs := h.joined
      refine ⟨?_, ?_⟩
      · rw [hrlines]
        omega
      · rw [hrlines]
        show TwoLinesOver _ t.pending
        rw [hpending]
        exact h.append howes hover line

theorem bounded_new : Bounded ({} : LogicalRecordFramer) [] :=
  ⟨by decide, by decide, ⟨[], nil_sublist _, by decide, by decide⟩,
    fun _ => ⟨by decide, by decide, .inl (by decide)⟩⟩

theorem Bounded.run (h : Bounded s owed) (howes : Owes s owed) (lines : List PhysicalLine) :
    Bounded (s.pushLines lines) (s.notYetEmitted owed lines) ∧
      ∀ r ∈ s.completed lines, RecordBounded r := by
  induction lines generalizing s owed with
  | nil => exact ⟨h, by simp⟩
  | cons line lines ih =>
    obtain ⟨hnext, hgiven⟩ := h.push howes line
    obtain ⟨hend, hrest⟩ := ih hnext (howes.push line).1
    refine ⟨hend, fun r hr => ?_⟩
    rw [completed_cons, mem_append, Option.mem_toList] at hr
    rcases hr with hr | hr
    · exact hgiven r hr
    · exact hrest r hr

theorem finish_takes (s : LogicalRecordFramer) : s.finish.2 =
    if s.pending = [] then none else some ⟨s.pending, false, s.overBound⟩ := by
  unfold finish takePending
  simp only
  split <;> rfl

theorem Bounded.finish (h : Bounded s owed) (howes : Owes s owed) {r : FramedRecord}
    (hr : s.finish.2 = some r) : RecordBounded r := by
  rw [finish_takes] at hr
  split at hr
  · cases hr
  · rename_i hne
    obtain rfl := Option.some.inj hr
    have hlines : recordLines ⟨s.pending, false, s.overBound⟩ = fromFirst owed := by
      unfold recordLines
      rw [howes.pending,
        splitOn_joinLines (fromFirst_ne_nil_of_pending howes hne) howes.unbroken]
    refine ⟨?_, ?_⟩
    · rw [hlines]
      exact Nat.le_trans h.joined h.lines
    · rw [hlines]
      exact h.size

theorem Bounded.marked (h : Bounded s owed) (hexceeds : s.exceeds = true)
    (hlines : 1 < s.pendingLines) : s.overBound = true := by
  cases hover : s.overBound with
  | true => rfl
  | false =>
    obtain ⟨hcount, hdepth, hsize⟩ := h.unmarked hover
    have hwithin : s.exceeds = false :=
      exceeds_eq_false.mpr ⟨hsize.resolve_right (fun ⟨hone, _⟩ => by omega), hcount, hdepth⟩
    rw [hwithin] at hexceeds
    cases hexceeds

/-! ## Where no mark is set -/

/-- While a quote is open, plain lines are taken into the record up to the bounds themselves. -/
theorem pushLines_open {lines : List PhysicalLine} (hover : s.overBound = false)
    (hopen : s.csv.isOpen = true) (hne : s.pending ≠ [])
    (hdepth : ¬ s.jsonDepth > maxJsonFramingDepth)
    (hplain : ∀ p ∈ lines, '"' ∉ strippedLine p ∧ criIsFull (strippedLine p) = false)
    (hbytes : (bytes s.pending).length +
      (lines.map fun p => (bytes (strippedLine p)).length + 1).sum ≤ maxLogicalRecordBytes)
    (hcount : s.pendingLines + lines.length ≤ maxPhysicalLinesPerRecord) :
    (s.pushLines lines).overBound = false ∧ (s.pushLines lines).csv.isOpen = true ∧
      (s.pushLines lines).pending ≠ [] ∧
      (s.pushLines lines).pendingLines = s.pendingLines + lines.length ∧
      (bytes (s.pushLines lines).pending).length = (bytes s.pending).length +
        (lines.map fun p => (bytes (strippedLine p)).length + 1).sum := by
  induction lines generalizing s with
  | nil => exact ⟨hover, hopen, hne, rfl, rfl⟩
  | cons line lines ih =>
    obtain ⟨hquote, hfull⟩ := hplain line mem_cons_self
    rw [map_cons, sum_cons] at hbytes ⊢
    rw [length_cons] at hcount ⊢
    have hpush := pushLine_open hover (.inl hopen) line hquote hfull
    have hpending : (bytes (s.appendLine (strippedLine line)).pending).length =
        (bytes s.pending).length + ((bytes (strippedLine line)).length + 1) := by
      have hfeed : '\n'.utf8Size = 1 := rfl
      rw [appendLine_pending]
      unfold joined
      rw [if_neg hne]
      simp only [length_bytes, byteLen_append, byteLen_cons]
      omega
    have hlines : (s.appendLine (strippedLine line)).pendingLines = s.pendingLines + 1 := rfl
    have hwithin : (s.appendLine (strippedLine line)).exceeds = false :=
      exceeds_eq_false.mpr ⟨by omega, by omega, hdepth⟩
    have hover' : (s.appendLine (strippedLine line)).overBound = false := hover
    have hstays : (s.appendLine (strippedLine line)).closeIfOverBoundIncluding =
        s.appendLine (strippedLine line) := by
      rw [closeIfOverBoundIncluding_eq hover', hwithin, ← hover']
    have hnext : (s.pushLine line).1 = s.appendLine (strippedLine line) := by rw [hpush, hstays]
    rw [pushLines_cons, hnext]
    obtain ⟨h1, h2, h3, h4, h5⟩ := ih hover' (by rw [appendLine_csv_isOpen hquote]; exact hopen)
      (by simp [hne]) hdepth (fun p hp => hplain p (mem_cons_of_mem line hp)) (by omega)
      (by omega)
    exact ⟨h1, h2, h3, by omega, by omega⟩

def fillerLine (n : Nat) : PhysicalLine :=
  ⟨replicate n 'a', fun h => absurd (eq_of_mem_replicate h) (by decide)⟩

theorem strippedLine_fillerLine (n : Nat) :
    strippedLine (fillerLine n) = replicate n 'a' := by
  unfold strippedLine stripEnd
  rw [if_neg]
  · rfl
  · intro h
    exact absurd (eq_of_mem_replicate (mem_of_getLast? h)) (by decide)

theorem length_bytes_filler (n : Nat) : (bytes (replicate n 'a')).length = n := by
  rw [length_bytes, byteLen_ascii, length_replicate]
  intro c hc
  rw [eq_of_mem_replicate hc]
  rfl

/-- A record of as many lines and bytes as the bounds allow. -/
def fullRecord : List PhysicalLine :=
  quotedField :: (replicate 3778 (fillerLine 209) ++ replicate 1221 (fillerLine 208))

theorem fullRecord_open :
    (({} : LogicalRecordFramer).pushLines fullRecord).overBound = false ∧
      (({} : LogicalRecordFramer).pushLines fullRecord).csv.isOpen = true ∧
      (({} : LogicalRecordFramer).pushLines fullRecord).pending ≠ [] ∧
      (({} : LogicalRecordFramer).pushLines fullRecord).pendingLines =
        maxPhysicalLinesPerRecord ∧
      (bytes (({} : LogicalRecordFramer).pushLines fullRecord).pending).length =
        maxLogicalRecordBytes := by
  have hplain : ∀ p ∈ replicate 3778 (fillerLine 209) ++
      replicate 1221 (fillerLine 208),
      '"' ∉ strippedLine p ∧ criIsFull (strippedLine p) = false := by
    intro p hp
    have hquote : ∀ n, '"' ∉ replicate n 'a' := fun n h =>
      absurd (eq_of_mem_replicate h) (by decide)
    rcases mem_append.mp hp with hp | hp <;>
      rw [eq_of_mem_replicate hp, strippedLine_fillerLine] <;>
      exact ⟨hquote _, by decide +kernel⟩
  have hsum : ((replicate 3778 (fillerLine 209) ++ replicate 1221
      (fillerLine 208)).map fun p => (bytes (strippedLine p)).length + 1).sum = 1048569 := by
    rw [map_append, sum_append, map_replicate, map_replicate,
      sum_replicate, sum_replicate, strippedLine_fillerLine, strippedLine_fillerLine,
      length_bytes_filler, length_bytes_filler]
    rfl
  have hfirst : (({} : LogicalRecordFramer).pushLine quotedField).1.overBound = false ∧
      (({} : LogicalRecordFramer).pushLine quotedField).1.csv.isOpen = true ∧
      (({} : LogicalRecordFramer).pushLine quotedField).1.pending = "\"T,,, x".toList ∧
      (({} : LogicalRecordFramer).pushLine quotedField).1.pendingLines = 1 ∧
      ¬ (({} : LogicalRecordFramer).pushLine quotedField).1.jsonDepth > maxJsonFramingDepth := by
    decide +kernel
  obtain ⟨hover, hopen, hpending, hone, hdepth⟩ := hfirst
  have hseven : (bytes "\"T,,, x".toList).length = 7 := by decide
  have hlength : (replicate 3778 (fillerLine 209) ++
      replicate 1221 (fillerLine 208)).length = 4999 := by
    rw [length_append, length_replicate, length_replicate]
  obtain ⟨h1, h2, h3, h4, h5⟩ := pushLines_open hover hopen (by rw [hpending]; decide) hdepth hplain
    (by rw [hpending, hseven, hsum]; decide) (by rw [hone, hlength]; decide)
  rw [hone, hlength] at h4
  rw [hpending, hseven, hsum] at h5
  rw [fullRecord, pushLines_cons]
  exact ⟨h1, h2, h3, h4, h5⟩

/-- A record that reaches both bounds is not marked, and neither is a single line over one. -/
theorem bounds_reached_unmarked :
    ((({} : LogicalRecordFramer).pushLines fullRecord).pendingLines = maxPhysicalLinesPerRecord ∧
      (bytes (({} : LogicalRecordFramer).pushLines fullRecord).pending).length =
        maxLogicalRecordBytes ∧
      (({} : LogicalRecordFramer).pushLines fullRecord).finish.2 =
        some ⟨(({} : LogicalRecordFramer).pushLines fullRecord).pending, false, false⟩) ∧
    (maxLogicalRecordBytes < (bytes (fillerLine (maxLogicalRecordBytes + 1)).text).length ∧
      ({} : LogicalRecordFramer).records [fillerLine (maxLogicalRecordBytes + 1)] =
        [⟨(fillerLine (maxLogicalRecordBytes + 1)).text, false, false⟩]) := by
  constructor
  · obtain ⟨hover, -, hne, hlines, hbytes⟩ := fullRecord_open
    exact ⟨hlines, hbytes, by rw [finish_takes, if_neg hne, hover]⟩
  · refine ⟨?_, ?_⟩
    · show _ < (bytes (replicate (maxLogicalRecordBytes + 1) 'a')).length
      rw [length_bytes_filler]
      exact Nat.lt_succ_self _
    · have hstart := settled_new.pushLine (fillerLine (maxLogicalRecordBytes + 1))
      rw [strippedLine_fillerLine] at hstart
      have hne : replicate (maxLogicalRecordBytes + 1) 'a' ≠ [] := by
        rw [replicate_succ]
        simp
      unfold records
      rw [completed_cons, completed_nil, pushLines_cons, pushLines_nil, hstart, finish_takes]
      rw [startNew_pending, if_neg hne, (startNew_within _ _).2.1]
      rfl

/-- Every record of a run is bounded, and an open record of more than one line that is over a bound
is emitted truncated by whatever comes next. -/
theorem framed_records_bounded (lines : List PhysicalLine) :
    (∀ r ∈ ({} : LogicalRecordFramer).records lines, RecordBounded r) ∧
      ∀ s, s = ({} : LogicalRecordFramer).pushLines lines → s.pending ≠ [] → s.exceeds = true →
        1 < s.pendingLines →
        (∀ next, (s.pushLine next).2 = some ⟨s.pending, false, true⟩) ∧
          s.finish.2 = some ⟨s.pending, false, true⟩ := by
  obtain ⟨hend, hgiven⟩ := bounded_new.run owes_new lines
  have howes := owes_new.run lines
  refine ⟨fun r hr => ?_, ?_⟩
  · unfold records at hr
    rw [mem_append, Option.mem_toList] at hr
    rcases hr with hr | hr
    · exact hgiven r hr
    · exact hend.finish howes hr
  · rintro s rfl hne hexceeds hlines
    have hover := hend.marked hexceeds hlines
    refine ⟨fun next => ?_, ?_⟩
    · unfold pushLine takePending
      simp only [hover, if_true, if_neg hne]
    · rw [finish_takes, if_neg hne, hover]

theorem fullRecord_exceeded {t : LogicalRecordFramer} (hover : s.overBound = false)
    (hopen : s.csv.isOpen = true) (hne : s.pending ≠ [])
    (hlines : s.pendingLines = maxPhysicalLinesPerRecord) (ht : t = s.pushLines [fillerLine 0]) :
    t.pending ≠ [] ∧ t.exceeds = true ∧ 1 < t.pendingLines := by
  have hpush := pushLine_open hover (.inl hopen) (fillerLine 0)
    (by rw [strippedLine_fillerLine]; decide) (by rw [strippedLine_fillerLine]; decide)
  have hover' : (s.appendLine (strippedLine (fillerLine 0))).overBound = false := hover
  rw [pushLines_cons, pushLines_nil, hpush, closeIfOverBoundIncluding_eq hover'] at ht
  have hcount : t.pendingLines = maxPhysicalLinesPerRecord + 1 := by
    rw [ht, ← hlines]
    rfl
  refine ⟨?_, ?_, ?_⟩
  · rw [ht]
    show s.pending ++ _ ≠ []
    simp [hne]
  · unfold exceeds
    rw [hcount]
    simp
  · rw [hcount]
    decide

/-- One more line, and the record is emitted truncated. -/
theorem framed_records_bounded_sample :
    (({} : LogicalRecordFramer).pushLines (fullRecord ++ [fillerLine 0])).finish.2 =
      some ⟨(({} : LogicalRecordFramer).pushLines (fullRecord ++ [fillerLine 0])).pending,
        false, true⟩ := by
  obtain ⟨hover, hopen, hne, hlines, -⟩ := fullRecord_open
  obtain ⟨h1, h2, h3⟩ := fullRecord_exceeded hover hopen hne hlines
    (pushLines_append ({} : LogicalRecordFramer) fullRecord [fillerLine 0])
  exact ((framed_records_bounded (fullRecord ++ [fillerLine 0])).2 _ rfl h1 h2 h3).2

end ContextDesk.LogAnalysis.LogicalRecordFramer
