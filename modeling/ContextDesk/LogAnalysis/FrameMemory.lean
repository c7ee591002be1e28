import ContextDesk.LogAnalysis.Frame

/-!
# What a framer remembers of an emitted record

A `Settled` framer has nothing pending and no mode open: it frames like a new one. A truncated
record is closed by `startNew`, which writes every field. A record closed by its own last line is
closed by one mode, and `takePending` leaves the fields of the others as they are: `ClosesClean`
says that none of them stays open, `Exclusive` is the invariant that leaves the quote of a CSV
field and the CRI partial as the only pair that can be open together.
-/

namespace ContextDesk.LogAnalysis.LogicalRecordFramer

open Lib Lib.Text Lib.Str Framing

/-! ## Settled framers -/

structure Settled (s : LogicalRecordFramer) : Prop where
  pending : s.pending = []
  overBound : s.overBound = false
  csv : s.csv.isOpen = false
  criPartialOpen : s.criPartialOpen = false
  jsonDepth : ¬ s.jsonDepth > 0

variable {s : LogicalRecordFramer}

theorem Settled.pushLine (h : Settled s) (physical : PhysicalLine) :
    s.pushLine physical = (s.startNew (strippedLine physical), none) := by
  unfold LogicalRecordFramer.pushLine
  simp [h.overBound, h.csv, h.criPartialOpen, h.jsonDepth, h.pending]

theorem settled_new : Settled ({} : LogicalRecordFramer) := by
  refine ⟨rfl, rfl, rfl, rfl, ?_⟩
  decide

theorem Settled.records (h : Settled s) (lines : List PhysicalLine) :
    s.records lines = ({} : LogicalRecordFramer).records lines := by
  unfold LogicalRecordFramer.records
  cases lines with
  | nil => simp [finish, takePending, h.pending]
  | cons line lines =>
    simp only [completed_cons, pushLines_cons, h.pushLine, settled_new.pushLine]
    rfl

/-! ## Which modes can be open together -/

/-- A record that is not CSV-shaped has no quote state, and one that is read as JSON is neither
CSV-shaped nor partial. -/
structure Exclusive (s : LogicalRecordFramer) : Prop where
  csv : s.csvRecord = false → s.csv = {}
  json : s.jsonDepth > 0 → s.csvRecord = false ∧ s.criPartialOpen = false

theorem trimStart_trim (line : List Char) :
    ∃ blank, trimStart line = trim line ++ blank ∧ blank.all isWhitespace := by
  unfold trim trimEnd
  refine ⟨((trimStart line).reverse.takeWhile isWhitespace).reverse, ?_, ?_⟩
  · rw [← List.reverse_append, List.takeWhile_append_dropWhile, List.reverse_reverse]
  · rw [List.all_reverse]
    exact List.all_takeWhile

variable {line : List Char}

theorem json_start_line (h : looksLikeMultilineJsonStart line = true) :
    ∃ blank, trimStart line = '{' :: blank ∧ blank.all isWhitespace := by
  obtain ⟨blank, htrim, hblank⟩ := trimStart_trim line
  unfold looksLikeMultilineJsonStart at h
  simp only [Bool.or_eq_true, decide_eq_true_eq, Bool.and_eq_true] at h
  rcases h with h | ⟨hs, hall⟩
  · exact ⟨blank, by rw [htrim, h]; rfl, hblank⟩
  · cases ht : trim line with
    | nil => rw [ht] at hs; exact absurd hs (by decide)
    | cons c rest =>
      rw [ht] at hs hall htrim
      have hc : c = '{' := by
        unfold startsWith at hs
        have hb : '{' = c := by simpa using hs
        exact hb.symm
      refine ⟨rest ++ blank, by rw [htrim, hc]; rfl, ?_⟩
      rw [List.all_append, hblank, Bool.and_true]
      exact hall

theorem json_start_not_csv (h : looksLikeMultilineJsonStart line = true) :
    looksLikeCsvRecord line = false := by
  obtain ⟨blank, htrim, -⟩ := json_start_line h
  unfold looksLikeCsvRecord startsWith
  simp [htrim]

theorem json_start_not_partial (h : looksLikeMultilineJsonStart line = true) :
    criIsPartial line = false := by
  obtain ⟨blank, htrim, hblank⟩ := json_start_line h
  unfold criIsPartial
  rw [htrim]
  cases blank with
  | nil => decide
  | cons c blank =>
    have hc : isWhitespace c = true := by
      rw [List.all_cons, Bool.and_eq_true] at hblank
      exact hblank.1
    have hsplit : splitn isWhitespace 4 ('{' :: c :: blank) =
        ['{'] :: splitn isWhitespace 3 blank := by
      have hbrace : isWhitespace '{' = false := by decide
      simp [splitn, hc, hbrace]
    -- the first field is the brace, which is no timestamp
    unfold criLine
    rw [hsplit]
    rcases splitn isWhitespace 3 blank with _ | ⟨stream, _ | ⟨tag, more⟩⟩
    · rfl
    · rfl
    · simp

theorem feedJson_kept (s : LogicalRecordFramer) (ch : Char) :
    (s.feedJson ch).csv = s.csv ∧ (s.feedJson ch).csvRecord = s.csvRecord ∧
      (s.feedJson ch).criPartialOpen = s.criPartialOpen ∧
      (s.feedJson ch).overBound = s.overBound ∧ (s.feedJson ch).pendingLines = s.pendingLines := by
  unfold feedJson
  repeat' split
  all_goals exact ⟨rfl, rfl, rfl, rfl, rfl⟩

theorem feedJsonLine_kept (s : LogicalRecordFramer) (line : List Char) :
    (s.feedJsonLine line).csv = s.csv ∧ (s.feedJsonLine line).csvRecord = s.csvRecord ∧
      (s.feedJsonLine line).criPartialOpen = s.criPartialOpen ∧
      (s.feedJsonLine line).overBound = s.overBound ∧
      (s.feedJsonLine line).pendingLines = s.pendingLines := by
  unfold feedJsonLine
  induction line generalizing s with
  | nil => exact ⟨rfl, rfl, rfl, rfl, rfl⟩
  | cons ch line ih =>
    obtain ⟨h1, h2, h3, h4, h5⟩ := ih (s.feedJson ch)
    obtain ⟨k1, k2, k3, k4, k5⟩ := feedJson_kept s ch
    exact ⟨h1.trans k1, h2.trans k2, h3.trans k3, h4.trans k4, h5.trans k5⟩

theorem exclusive_startNew (s : LogicalRecordFramer) (line : List Char) :
    Exclusive (s.startNew line) := by
  unfold startNew
  by_cases hj : looksLikeMultilineJsonStart line = true
  · simp only [hj, if_true]
    obtain ⟨hcsv, hrec, hcri, -, -⟩ := feedJsonLine_kept
      { s with
        pending := line, pendingLines := 1, overBound := false
        csv := if looksLikeCsvRecord line then ({} : CsvQuoteScanner).feedStr line else {}
        csvRecord := looksLikeCsvRecord line
        criPartialOpen := criIsPartial line
        jsonDepth := 0, jsonInString := false, jsonEscape := false } line
    refine ⟨fun _ => ?_, fun _ => ⟨?_, ?_⟩⟩
    · rw [hcsv]
      simp [json_start_not_csv hj]
    · rw [hrec]
      exact json_start_not_csv hj
    · rw [hcri]
      exact json_start_not_partial hj
  · simp only [hj, Bool.false_eq_true, if_false]
    refine ⟨fun h => ?_, fun h => absurd (show (0 : Int32) > 0 from h) (by decide)⟩
    simp only at h ⊢
    rw [h]
    rfl

theorem Exclusive.appendLine (h : Exclusive s) (line : List Char) :
    Exclusive (s.appendLine line) := by
  refine ⟨fun hr => ?_, fun hj => h.json hj⟩
  have hr' : s.csvRecord = false := hr
  show (if s.csvRecord then _ else s.csv) = _
  rw [hr']
  exact h.csv hr'

theorem Exclusive.feedJsonLine (h : Exclusive s) (hj : s.jsonDepth > 0) (line : List Char) :
    Exclusive (s.feedJsonLine line) := by
  obtain ⟨hcsv, hrec, hcri, -, -⟩ := feedJsonLine_kept s line
  refine ⟨fun hr => ?_, fun _ => ?_⟩
  · rw [hcsv]
    exact h.csv (hrec ▸ hr)
  · rw [hrec, hcri]
    exact h.json hj

theorem Exclusive.closeIfOverBoundIncluding (h : Exclusive s) :
    Exclusive s.closeIfOverBoundIncluding := by
  unfold LogicalRecordFramer.closeIfOverBoundIncluding
  split
  · exact ⟨h.csv, h.json⟩
  · exact h

theorem Exclusive.takePending (h : Exclusive s) (i t : Bool) : Exclusive (s.takePending i t).1 := by
  unfold LogicalRecordFramer.takePending
  split
  · exact h
  · exact ⟨h.csv, h.json⟩

theorem Exclusive.pushLine (h : Exclusive s) (physical : PhysicalLine) :
    Exclusive (s.pushLine physical).1 := by
  unfold LogicalRecordFramer.pushLine
  simp only
  split
  · exact exclusive_startNew s _
  split
  · split
    · exact (h.appendLine _).takePending _ _
    · exact (h.appendLine _).closeIfOverBoundIncluding
  split
  · split
    · have hcri : Exclusive
          { s.appendLine (strippedLine physical) with criPartialOpen := false } :=
        ⟨(h.appendLine _).csv, fun hj => ⟨(h.json hj).1, rfl⟩⟩
      exact hcri.takePending _ _
    · exact (h.appendLine _).closeIfOverBoundIncluding
  split
  · rename_i hj
    split
    · exact ((h.appendLine _).feedJsonLine hj _).takePending _ _
    · exact ((h.appendLine _).feedJsonLine hj _).closeIfOverBoundIncluding
  split
  · exact exclusive_startNew s _
  split
  · exact (h.appendLine _).closeIfOverBoundIncluding
  · exact exclusive_startNew s _

theorem Exclusive.pushLines (h : Exclusive s) (lines : List PhysicalLine) :
    Exclusive (s.pushLines lines) := by
  induction lines generalizing s with
  | nil => exact h
  | cons line lines ih => exact ih (h.pushLine line)

theorem exclusive_new : Exclusive ({} : LogicalRecordFramer) :=
  ⟨fun _ => rfl, fun h => absurd h (by decide)⟩

/-! ## Records closed by their own last line -/

/-- The line that closes the open record leaves no other mode open: a quote is not closed under an
open partial, and the last line of a partial opens no quote. -/
def ClosesClean (s : LogicalRecordFramer) (line : List Char) : Prop :=
  if s.csv.isOpen then s.criPartialOpen = false
  else s.criPartialOpen = true → s.csvRecord = true →
    (s.csv.feedStr (s.joined line)).isOpen = false

variable {r : FramedRecord}

theorem takePending_some {i t : Bool} (h : (s.takePending i t).2 = some r) :
    (s.takePending i t).1 = { s with pending := [], pendingLines := 0 } ∧
      r.includesPushedLine = i ∧ r.truncated = t := by
  unfold takePending at h ⊢
  split at h
  · cases h
  · rename_i hne
    cases h
    rw [if_neg hne]
    exact ⟨rfl, rfl, rfl⟩

/-- After a record that holds its last pushed line, nothing is pending and no bound or brace is
open; the framer is settled exactly when the close was clean. -/
structure ClosedBy (s : LogicalRecordFramer) (line : List Char) (t : LogicalRecordFramer) :
    Prop where
  pending : t.pending = []
  pendingLines : t.pendingLines = 0
  overBound : t.overBound = false
  jsonDepth : ¬ t.jsonDepth > 0
  clean : ClosesClean s line ↔ t.csv.isOpen = false ∧ t.criPartialOpen = false

theorem closedBy_quote (hex : Exclusive s) (hover : s.overBound = false)
    (hcsv : s.csv.isOpen = true) (hclose : (s.appendLine line).csv.isOpen = false) :
    ClosedBy s line { s.appendLine line with pending := [], pendingLines := 0 } := by
  have hrec : s.csvRecord = true := by
    by_contra hr
    rw [Bool.not_eq_true] at hr
    rw [hex.csv hr] at hcsv
    cases hcsv
  refine ⟨rfl, rfl, hover, fun hj => ?_, ?_⟩
  · exact absurd ((hex.json hj).1.symm.trans hrec) (by decide)
  · unfold ClosesClean
    rw [if_pos hcsv]
    exact (and_iff_right hclose).symm

theorem closedBy_partial (hex : Exclusive s) (hover : s.overBound = false)
    (hcsv : ¬ s.csv.isOpen = true) (hcri : s.criPartialOpen = true) (line : List Char) :
    ClosedBy s line
      { s.appendLine line with criPartialOpen := false, pending := [], pendingLines := 0 } := by
  refine ⟨rfl, rfl, hover, fun hj => ?_, ?_⟩
  · exact absurd ((hex.json hj).2.symm.trans hcri) (by decide)
  · unfold ClosesClean
    rw [if_neg hcsv]
    simp only [hcri, forall_const, and_true]
    show _ ↔ (if s.csvRecord then _ else s.csv).isOpen = false
    cases s.csvRecord with
    | true => simp
    | false => simpa using hcsv

theorem closedBy_brace (hex : Exclusive s) (hover : s.overBound = false)
    (hcsv : ¬ s.csv.isOpen = true) (hcri : ¬ s.criPartialOpen = true) (hjson : s.jsonDepth > 0)
    (hzero : ((s.appendLine line).feedJsonLine line).jsonDepth = 0) :
    ClosedBy s line
      { (s.appendLine line).feedJsonLine line with pending := [], pendingLines := 0 } := by
  obtain ⟨kcsv, -, kcri, kover, -⟩ := feedJsonLine_kept (s.appendLine line) line
  refine ⟨rfl, rfl, kover.trans hover, ?_, ?_⟩
  · show ¬ ((s.appendLine line).feedJsonLine line).jsonDepth > 0
    rw [hzero]
    decide
  · unfold ClosesClean
    rw [if_neg hcsv]
    show _ ↔ ((s.appendLine line).feedJsonLine line).csv.isOpen = false ∧
      ((s.appendLine line).feedJsonLine line).criPartialOpen = false
    rw [kcsv, kcri]
    show _ ↔ (if s.csvRecord then _ else s.csv).isOpen = false ∧ s.criPartialOpen = false
    simp [(hex.json hjson).1, hcsv, hcri]

theorem pushLine_closed (hex : Exclusive s) {physical : PhysicalLine}
    (h : (s.pushLine physical).2 = some r) (hi : r.includesPushedLine = true) :
    ClosedBy s (strippedLine physical) (s.pushLine physical).1 := by
  -- the branches that give no record, or one without the pushed line, contradict `h` and `hi`
  have hnot : ∀ {t : LogicalRecordFramer} {b : Bool}, (t.takePending false b).2 ≠ some r := by
    intro t b ht
    rw [(takePending_some ht).2.1] at hi
    cases hi
  unfold LogicalRecordFramer.pushLine at h ⊢
  simp only at h ⊢
  split at h
  · exact absurd h hnot
  rename_i hover
  rw [if_neg hover]
  rw [Bool.not_eq_true] at hover
  split at h
  · rename_i hcsv
    rw [if_pos hcsv]
    split at h
    · rename_i hclose
      rw [if_pos hclose, (takePending_some h).1]
      exact closedBy_quote hex hover hcsv (by simpa using hclose)
    · cases h
  rename_i hcsv
  rw [if_neg hcsv]
  split at h
  · rename_i hcri
    rw [if_pos hcri]
    split at h
    · rename_i hfull
      rw [if_pos hfull, (takePending_some h).1]
      exact closedBy_partial hex hover hcsv hcri _
    · cases h
  rename_i hcri
  rw [if_neg hcri]
  split at h
  · rename_i hjson
    rw [if_pos hjson]
    split at h
    · rename_i hzero
      rw [if_pos hzero, (takePending_some h).1]
      exact closedBy_brace hex hover hcsv hcri hjson hzero
    · cases h
  split at h
  · cases h
  split at h
  · cases h
  · exact absurd h hnot

def lineA : PhysicalLine := ⟨['a'], by decide⟩

def lineB : PhysicalLine := ⟨['b'], by decide⟩

theorem records_new_apart :
    ({} : LogicalRecordFramer).records [lineA, lineB] =
      [⟨['a'], false, false⟩, ⟨['b'], false, false⟩] := by
  decide

theorem closeIfOverBoundIncluding_within (hb : (bytes s.pending).length ≤ 3)
    (hl : s.pendingLines ≤ 2) (hj : ¬ s.jsonDepth > 0) : s.closeIfOverBoundIncluding = s := by
  unfold closeIfOverBoundIncluding maxLogicalRecordBytes maxPhysicalLinesPerRecord
  have hdepth : ¬ s.jsonDepth > maxJsonFramingDepth := by
    unfold maxJsonFramingDepth
    intro h
    exact hj (Int32.lt_trans (by decide) h)
  rw [if_neg]
  simp only [Bool.or_eq_true, decide_eq_true_eq, not_or]
  exact ⟨⟨by omega, by omega⟩, hdepth⟩

theorem feedStr_isOpen {text : List Char} (h : '"' ∉ text) (q : CsvQuoteScanner) :
    (q.feedStr text).isOpen = q.isOpen := by
  unfold CsvQuoteScanner.feedStr
  induction text generalizing q with
  | nil => rfl
  | cons ch text ih =>
    rw [List.mem_cons, not_or] at h
    obtain ⟨hch, htext⟩ := h
    rw [List.foldl_cons, ih htext]
    have hne : (ch == '"') = false := beq_eq_false_iff_ne.mpr (Ne.symm hch)
    unfold CsvQuoteScanner.feed CsvQuoteScanner.isOpen
    obtain ⟨opened, deferred⟩ := q
    cases opened <;> cases deferred <;> simp [hne]

theorem appendLine_csv_isOpen (h : '"' ∉ line) : (s.appendLine line).csv.isOpen = s.csv.isOpen := by
  show (if s.csvRecord then _ else s.csv).isOpen = _
  cases s.csvRecord with
  | false => rfl
  | true =>
    refine feedStr_isOpen ?_ _
    unfold joined
    split
    · exact h
    · simpa using h

theorem pushLine_open (hover : s.overBound = false)
    (hopen : s.csv.isOpen = true ∨ s.criPartialOpen = true) (physical : PhysicalLine)
    (hquote : '"' ∉ strippedLine physical) (hfull : criIsFull (strippedLine physical) = false) :
    s.pushLine physical =
      ((s.appendLine (strippedLine physical)).closeIfOverBoundIncluding, none) := by
  unfold pushLine
  have hcsv := appendLine_csv_isOpen (s := s) hquote
  by_cases hq : s.csv.isOpen = true
  · simp [hover, hq, hcsv]
  · simp [hover, hq, hopen.resolve_left hq, hfull]

/-- A framer left with a quote or a partial open merges two lines that a new one keeps apart. -/
theorem records_merged (hpending : s.pending = []) (hlines : s.pendingLines = 0)
    (hover : s.overBound = false) (hjson : ¬ s.jsonDepth > 0)
    (hopen : s.csv.isOpen = true ∨ s.criPartialOpen = true) :
    s.records [lineA, lineB] = [⟨['a', '\n', 'b'], false, false⟩] := by
  have hja : s.joined ['a'] = ['a'] := by
    unfold joined
    rw [if_pos hpending]
  have hpa : (s.appendLine ['a']).pending = ['a'] := by
    show s.pending ++ s.joined ['a'] = _
    rw [hja, hpending]
    rfl
  have hla : (s.appendLine ['a']).pendingLines = 1 := by
    show s.pendingLines + 1 = 1
    omega
  have hfirst : s.pushLine lineA = (s.appendLine ['a'], none) := by
    have hpush := pushLine_open hover hopen lineA (by decide) (by decide)
    rw [hpush]
    refine congrArg (·, none) (closeIfOverBoundIncluding_within ?_ ?_ hjson)
    · show (bytes (s.appendLine ['a']).pending).length ≤ 3
      rw [hpa]
      decide
    · show (s.appendLine ['a']).pendingLines ≤ 2
      omega
  have hopen' : (s.appendLine ['a']).csv.isOpen = true ∨
      (s.appendLine ['a']).criPartialOpen = true := by
    rw [appendLine_csv_isOpen (by decide)]
    exact hopen
  have hpb : ((s.appendLine ['a']).appendLine ['b']).pending = ['a', '\n', 'b'] := by
    show (s.appendLine ['a']).pending ++ (s.appendLine ['a']).joined ['b'] = _
    unfold joined
    rw [hpa]
    rfl
  have hsecond : (s.appendLine ['a']).pushLine lineB =
      ((s.appendLine ['a']).appendLine ['b'], none) := by
    have hpush := pushLine_open (s := s.appendLine ['a']) hover hopen' lineB (by decide)
      (by decide)
    rw [hpush]
    refine congrArg (·, none) (closeIfOverBoundIncluding_within ?_ ?_ hjson)
    · show (bytes ((s.appendLine ['a']).appendLine ['b']).pending).length ≤ 3
      rw [hpb]
      decide
    · show (s.appendLine ['a']).pendingLines + 1 ≤ 2
      omega
  have hover' : ((s.appendLine ['a']).appendLine ['b']).overBound = false := hover
  unfold records
  simp only [completed_cons, completed_nil, pushLines_cons, pushLines_nil, hfirst, hsecond,
    Option.toList_none, List.nil_append]
  unfold finish takePending
  simp only [hpb, hover', reduceCtorEq, if_false, Option.toList_some]

theorem ClosedBy.settled_iff {t : LogicalRecordFramer} (h : ClosedBy s line t) :
    Settled t ↔ ClosesClean s line := by
  rw [h.clean]
  constructor
  · intro ht
    exact ⟨ht.csv, ht.criPartialOpen⟩
  · rintro ⟨hcsv, hcri⟩
    exact ⟨h.pending, h.overBound, hcsv, hcri, h.jsonDepth⟩

/-- A framer that has closed a record frames all that follows like a new one exactly when the
close was clean. -/
theorem ClosedBy.memoryless {t : LogicalRecordFramer} (h : ClosedBy s line t) :
    (∀ rest, t.records rest = ({} : LogicalRecordFramer).records rest) ↔ ClosesClean s line := by
  rw [← h.settled_iff]
  constructor
  · intro hall
    by_contra hns
    have hopen : t.csv.isOpen = true ∨ t.criPartialOpen = true := by
      by_contra hno
      simp only [not_or, Bool.not_eq_true] at hno
      exact hns (h.settled_iff.mpr (h.clean.mpr hno))
    have hab := hall [lineA, lineB]
    rw [records_merged h.pending h.pendingLines h.overBound h.jsonDepth hopen,
      records_new_apart] at hab
    simp at hab
  · intro ht rest
    exact ht.records rest

/-- After a truncated record the framer stands where a new one stands after the line that
triggered the emission. -/
theorem pushLine_truncated {physical : PhysicalLine} (h : (s.pushLine physical).2 = some r)
    (ht : r.truncated = true) :
    (s.pushLine physical).1 = (({} : LogicalRecordFramer).pushLine physical).1 := by
  rw [settled_new.pushLine]
  unfold pushLine at h ⊢
  simp only at h ⊢
  split
  · rfl
  · rename_i hover
    simp only [hover, Bool.false_eq_true, if_false] at h
    exfalso
    revert h
    repeat' split
    all_goals
      intro h
      first
        | cases h
        | (rw [(takePending_some h).2.2] at ht; cases ht)

/-- Exactly a clean close leaves no memory of the record it closes; a truncated record never
leaves any. -/
theorem memoryless_iff (before : List PhysicalLine) (line : PhysicalLine) (r : FramedRecord)
    (h : ((({} : LogicalRecordFramer).pushLines before).pushLine line).2 = some r) :
    (r.includesPushedLine = true →
      ((∀ rest, ({} : LogicalRecordFramer).records (before ++ [line] ++ rest) =
          ({} : LogicalRecordFramer).completed (before ++ [line]) ++
            ({} : LogicalRecordFramer).records rest) ↔
        ClosesClean (({} : LogicalRecordFramer).pushLines before) (strippedLine line))) ∧
    (r.truncated = true →
      ∀ rest, ({} : LogicalRecordFramer).records (before ++ line :: rest) =
        ({} : LogicalRecordFramer).completed (before ++ [line]) ++
          ({} : LogicalRecordFramer).records (line :: rest)) := by
  constructor
  · intro hi
    have hclosed := pushLine_closed (exclusive_new.pushLines before) h hi
    rw [← hclosed.memoryless]
    refine forall_congr' fun rest => ?_
    rw [records_append, pushLines_append]
    exact List.append_cancel_left_eq _ _ _ |>.to_iff
  · intro ht rest
    have hstate := pushLine_truncated h ht
    rw [List.append_cons, records_append, pushLines_append]
    simp only [pushLines_cons, pushLines_nil]
    rw [hstate]
    congr 1

/-- A quoted field and nothing else open: `"T,,, x`. -/
def quotedField : PhysicalLine := ⟨"\"T,,, x".toList, by decide⟩

def quoteClose : PhysicalLine := ⟨"y\"".toList, by decide⟩

theorem memoryless_iff_quoted :
    ClosesClean (({} : LogicalRecordFramer).pushLines [quotedField]) (strippedLine quoteClose) ∧
    ∀ rest, ({} : LogicalRecordFramer).records ([quotedField] ++ [quoteClose] ++ rest) =
      ({} : LogicalRecordFramer).completed ([quotedField] ++ [quoteClose]) ++
        ({} : LogicalRecordFramer).records rest := by
  have hclean : ClosesClean (({} : LogicalRecordFramer).pushLines [quotedField])
      (strippedLine quoteClose) := by
    unfold ClosesClean
    decide
  exact ⟨hclean, ((memoryless_iff [quotedField] quoteClose ⟨"\"T,,, x\ny\"".toList, true, false⟩
    (by decide)).1 rfl).mpr hclean⟩

/-- A quoted field that is also a partial: `"T,,, stdout P x`. -/
def quotedPartial : PhysicalLine := ⟨"\"T,,, stdout P x".toList, by decide⟩

theorem quote_close_leaks_partial :
    (∃ r, ((({} : LogicalRecordFramer).pushLines [quotedPartial]).pushLine quoteClose).2 = some r ∧
      r.includesPushedLine = true) ∧
    ({} : LogicalRecordFramer).records ([quotedPartial, quoteClose] ++ [lineA, lineB]) ≠
      ({} : LogicalRecordFramer).completed [quotedPartial, quoteClose] ++
        ({} : LogicalRecordFramer).records [lineA, lineB] := by
  refine ⟨⟨⟨"\"T,,, stdout P x\ny\"".toList, true, false⟩, ?_, rfl⟩, ?_⟩
  · decide
  · decide

end ContextDesk.LogAnalysis.LogicalRecordFramer
