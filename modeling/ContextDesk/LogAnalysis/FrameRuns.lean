import ContextDesk.LogAnalysis.Frame

/-!
# What the records of a framing run hold

`PushEffect` says once what a push can do to the pending text: append the line, start with the
line, emit what was pending before the line, or emit it with the line. From it `Owes` is carried
along a run: the pending text is the join of the lines not emitted so far, less the empty ones at
their start. `framed_lines_exact` is the account of a whole run.
-/

namespace ContextDesk.LogAnalysis.LogicalRecordFramer

open Lib Lib.Text Lib.Str Framing List

def recordLines (r : FramedRecord) : List (List Char) := r.text.splitOn '\n'

/-- The second list is the first without some of its empty lines. -/
inductive DropsEmpty : List (List Char) → List (List Char) → Prop where
  | nil : DropsEmpty [] []
  | keep (line : List Char) {a b : List (List Char)} :
      DropsEmpty a b → DropsEmpty (line :: a) (line :: b)
  | drop {a b : List (List Char)} : DropsEmpty a b → DropsEmpty ([] :: a) b

theorem DropsEmpty.refl (a : List (List Char)) : DropsEmpty a a := by
  induction a with
  | nil => exact .nil
  | cons line a ih => exact .keep line ih

theorem DropsEmpty.append {a b c d : List (List Char)} (h : DropsEmpty a b)
    (h' : DropsEmpty c d) : DropsEmpty (a ++ c) (b ++ d) := by
  induction h with
  | nil => exact h'
  | keep line _ ih => exact .keep line ih
  | drop _ ih => exact .drop ih

/-- The lines from the first that is not empty on. -/
def fromFirst (lines : List (List Char)) : List (List Char) := lines.dropWhile List.isEmpty

theorem dropsEmpty_fromFirst (lines : List (List Char)) : DropsEmpty lines (fromFirst lines) := by
  unfold fromFirst
  induction lines with
  | nil => exact .nil
  | cons line lines ih =>
    rw [dropWhile_cons]
    cases line with
    | nil => exact .drop ih
    | cons c line => exact .refl _

/-- The lines not emitted so far, after a push that gave `r`. -/
def owedAfter (owed : List (List Char)) (line : List Char) : Option FramedRecord → List (List Char)
  | none => owed ++ [line]
  | some r => if r.includesPushedLine then [] else [line]

/-- The lines not emitted so far, after a run. -/
def notYetEmitted (s : LogicalRecordFramer) (owed : List (List Char)) :
    List PhysicalLine → List (List Char)
  | [] => owed
  | line :: lines =>
    (s.pushLine line).1.notYetEmitted (owedAfter owed (strippedLine line) (s.pushLine line).2) lines

/-! ## One push -/

/-- What a push of `line` can do to the pending text, with the record it gives. -/
inductive PushEffect (s : LogicalRecordFramer) (line : List Char) :
    List Char → Option FramedRecord → Prop where
  | append : PushEffect s line (s.pending ++ s.joined line) none
  | start : s.pending = [] → PushEffect s line line none
  | before (truncated : Bool) : s.pending ≠ [] →
      PushEffect s line line (some ⟨s.pending, false, truncated⟩)
  | closed : s.pending ++ s.joined line ≠ [] →
      PushEffect s line [] (some ⟨s.pending ++ s.joined line, true, false⟩)

theorem feedJson_pending (s : LogicalRecordFramer) (ch : Char) :
    (s.feedJson ch).pending = s.pending := by
  unfold feedJson
  repeat' split
  all_goals rfl

@[simp] theorem feedJsonLine_pending (s : LogicalRecordFramer) (line : List Char) :
    (s.feedJsonLine line).pending = s.pending := by
  unfold feedJsonLine
  induction line generalizing s with
  | nil => rfl
  | cons ch line ih => rw [foldl_cons, ih, feedJson_pending]

@[simp] theorem startNew_pending (s : LogicalRecordFramer) (line : List Char) :
    (s.startNew line).pending = line := by
  unfold startNew
  by_cases h : looksLikeMultilineJsonStart line <;> simp [h]

@[simp] theorem appendLine_pending (s : LogicalRecordFramer) (line : List Char) :
    (s.appendLine line).pending = s.pending ++ s.joined line := rfl

@[simp] theorem closeIfOverBoundIncluding_pending (s : LogicalRecordFramer) :
    s.closeIfOverBoundIncluding.pending = s.pending := by
  unfold closeIfOverBoundIncluding
  split <;> rfl

variable {s : LogicalRecordFramer}

theorem takePending_closed {t : LogicalRecordFramer} {line : List Char}
    (h : t.pending = s.pending ++ s.joined line) :
    PushEffect s line (t.takePending true false).1.pending (t.takePending true false).2 := by
  unfold takePending
  split
  · rw [h]
    exact .append
  · rename_i hne
    simp only [h] at hne ⊢
    exact .closed hne

theorem takePending_before (s : LogicalRecordFramer) (line : List Char) (truncated : Bool) :
    PushEffect s line ((s.takePending false truncated).1.startNew line).pending
      (s.takePending false truncated).2 := by
  rw [startNew_pending]
  unfold takePending
  split
  · exact .start ‹_›
  · exact .before truncated ‹_›

theorem pushLine_effect (s : LogicalRecordFramer) (physical : PhysicalLine) :
    PushEffect s (strippedLine physical) (s.pushLine physical).1.pending
      (s.pushLine physical).2 := by
  have happend : ∀ t : LogicalRecordFramer,
      t.pending = s.pending ++ s.joined (strippedLine physical) →
      PushEffect s (strippedLine physical) t.closeIfOverBoundIncluding.pending none := by
    intro t ht
    rw [closeIfOverBoundIncluding_pending, ht]
    exact .append
  unfold pushLine
  simp only
  split
  · exact takePending_before _ _ _
  split
  · split
    · exact takePending_closed rfl
    · exact happend _ rfl
  split
  · split
    · exact takePending_closed rfl
    · exact happend _ rfl
  split
  · split
    · exact takePending_closed (by simp)
    · exact happend _ (by simp)
  split
  · rw [startNew_pending]
    exact .start ‹_›
  split
  · exact happend _ rfl
  · exact takePending_before _ _ _

/-! ## Whole runs -/

def joinLines (lines : List (List Char)) : List Char := ['\n'].intercalate lines

theorem joinLines_concat {lines : List (List Char)} (h : lines ≠ []) (line : List Char) :
    joinLines (lines ++ [line]) = joinLines lines ++ '\n' :: line := by
  unfold joinLines
  induction lines with
  | nil => exact absurd rfl h
  | cons first lines ih =>
    cases lines with
    | nil => simp [List.intercalate]
    | cons second lines =>
      have := ih (by simp)
      simp only [List.intercalate, cons_append, intersperse_cons_cons,
        flatten_cons] at this ⊢
      rw [this]
      simp

theorem joinLines_fromFirst_eq_nil {lines : List (List Char)} :
    joinLines (fromFirst lines) = [] ↔ fromFirst lines = [] := by
  constructor
  · intro h
    cases hf : fromFirst lines with
    | nil => rfl
    | cons first rest =>
      have hne : first.isEmpty = false := by
        have := head?_dropWhile_not List.isEmpty lines
        unfold fromFirst at hf
        simpa [hf] using this
      rw [hf] at h
      cases rest <;> simp_all [joinLines, List.intercalate]
  · intro h
    rw [h]
    rfl

theorem fromFirst_concat (lines : List (List Char)) (line : List Char) :
    fromFirst (lines ++ [line]) =
      if fromFirst lines = [] then fromFirst [line] else fromFirst lines ++ [line] := by
  unfold fromFirst
  rw [dropWhile_append]
  simp only [List.isEmpty_iff]

/-- The pending text joins the lines not emitted so far, less the empty ones at their start. -/
structure Owes (s : LogicalRecordFramer) (owed : List (List Char)) : Prop where
  pending : s.pending = joinLines (fromFirst owed)
  unbroken : ∀ line ∈ owed, '\n' ∉ line

theorem strippedLine_unbroken (physical : PhysicalLine) : '\n' ∉ strippedLine physical := by
  intro h
  refine physical.unbroken ?_
  unfold strippedLine stripEnd at h
  split at h
  · exact mem_of_mem_dropLast h
  · exact h

variable {owed : List (List Char)}

theorem Owes.joined (h : Owes s owed) (line : List Char) :
    s.pending ++ s.joined line = joinLines (fromFirst (owed ++ [line])) := by
  unfold LogicalRecordFramer.joined
  rw [fromFirst_concat, h.pending]
  simp only [joinLines_fromFirst_eq_nil]
  split
  · rename_i he
    rw [he]
    cases line <;> simp [joinLines, fromFirst, List.intercalate]
  · exact (joinLines_concat ‹_› line).symm

theorem splitOn_joinLines (hne : fromFirst owed ≠ []) (h : ∀ line ∈ owed, '\n' ∉ line) :
    (joinLines (fromFirst owed)).splitOn '\n' = fromFirst owed :=
  splitOn_intercalate '\n' (fun line hl => h line ((dropWhile_sublist _).mem hl)) hne

theorem fromFirst_ne_nil_of_pending (h : Owes s owed) (hne : s.pending ≠ []) :
    fromFirst owed ≠ [] := by
  rw [h.pending] at hne
  exact fun he => hne (joinLines_fromFirst_eq_nil.mpr he)

theorem joinLines_single (line : List Char) : joinLines (fromFirst [line]) = line := by
  cases line <;> simp [joinLines, fromFirst, List.intercalate]

theorem Owes.effect {line pending : List Char} {given : Option FramedRecord} (h : Owes s owed)
    (hline : '\n' ∉ line) (he : PushEffect s line pending given) :
    pending = joinLines (fromFirst (owedAfter owed line given)) ∧
      (∀ l ∈ owedAfter owed line given, '\n' ∉ l) ∧
      ∀ r, given = some r →
        recordLines r = fromFirst (owed ++ if r.includesPushedLine then [line] else []) := by
  have howed : ∀ l ∈ owed ++ [line], '\n' ∉ l := by
    simp only [mem_append, mem_singleton]
    rintro l (hl | rfl)
    · exact h.unbroken l hl
    · exact hline
  cases he with
  | append => exact ⟨h.joined line, howed, by simp⟩
  | start hp =>
    refine ⟨?_, howed, by simp⟩
    have hj := h.joined line
    unfold LogicalRecordFramer.joined at hj
    simpa [hp, owedAfter] using hj
  | before truncated hne =>
    refine ⟨(joinLines_single line).symm, by simpa [owedAfter] using hline, ?_⟩
    rintro r hr
    cases hr
    unfold recordLines
    rw [h.pending, splitOn_joinLines (fromFirst_ne_nil_of_pending h hne) h.unbroken]
    simp
  | closed hne =>
    refine ⟨rfl, by simp [owedAfter], ?_⟩
    rintro r hr
    cases hr
    unfold recordLines
    rw [h.joined line] at hne ⊢
    rw [splitOn_joinLines (fun he => hne (joinLines_fromFirst_eq_nil.mpr he)) howed]
    simp

theorem Owes.push (h : Owes s owed) (physical : PhysicalLine) :
    Owes (s.pushLine physical).1
        (owedAfter owed (strippedLine physical) (s.pushLine physical).2) ∧
      ∀ r, (s.pushLine physical).2 = some r →
        recordLines r =
          fromFirst (owed ++ if r.includesPushedLine then [strippedLine physical] else []) := by
  obtain ⟨hp, hu, hr⟩ := h.effect (strippedLine_unbroken physical) (pushLine_effect s physical)
  exact ⟨⟨hp, hu⟩, hr⟩

theorem Owes.run (h : Owes s owed) (lines : List PhysicalLine) :
    Owes (s.pushLines lines) (s.notYetEmitted owed lines) := by
  induction lines generalizing s owed with
  | nil => exact h
  | cons line lines ih => exact ih (h.push line).1

theorem owes_new : Owes ({} : LogicalRecordFramer) [] := ⟨rfl, by simp⟩

theorem finish_record (h : Owes s owed) :
    s.finish.2.toList.flatMap recordLines = fromFirst owed := by
  unfold finish takePending
  simp only
  split
  · rename_i hp
    rw [h.pending] at hp
    rw [joinLines_fromFirst_eq_nil.mp hp]
    rfl
  · rename_i hp
    simp only [Option.toList_some, flatMap_singleton, recordLines]
    rw [h.pending, splitOn_joinLines (fromFirst_ne_nil_of_pending h hp) h.unbroken]

theorem dropsEmpty_push (h : Owes s owed) (physical : PhysicalLine) :
    ∃ split, owed ++ [strippedLine physical] =
        split ++ owedAfter owed (strippedLine physical) (s.pushLine physical).2 ∧
      DropsEmpty split ((s.pushLine physical).2.toList.flatMap recordLines) := by
  have hr := (h.push physical).2
  cases hg : (s.pushLine physical).2 with
  | none => exact ⟨[], rfl, .nil⟩
  | some r =>
    have hlines := hr r hg
    cases hi : r.includesPushedLine with
    | true =>
      refine ⟨owed ++ [strippedLine physical], by simp [owedAfter, hi], ?_⟩
      simp only [hi, if_true] at hlines
      simpa [hlines] using dropsEmpty_fromFirst (owed ++ [strippedLine physical])
    | false =>
      refine ⟨owed, by simp [owedAfter, hi], ?_⟩
      simp only [hi, Bool.false_eq_true, if_false, append_nil] at hlines
      simpa [hlines] using dropsEmpty_fromFirst owed

theorem dropsEmpty_records (h : Owes s owed) (lines : List PhysicalLine) :
    DropsEmpty (owed ++ lines.map strippedLine) ((s.records lines).flatMap recordLines) := by
  induction lines generalizing s owed with
  | nil =>
    simp only [records, completed_nil, pushLines_nil, nil_append, map_nil,
      append_nil, finish_record h]
    exact dropsEmpty_fromFirst owed
  | cons line lines ih =>
    obtain ⟨split, hsplit, hdrop⟩ := dropsEmpty_push h line
    have hrest := ih (h.push line).1
    have hrecords : s.records (line :: lines) =
        (s.pushLine line).2.toList ++ (s.pushLine line).1.records lines := by
      simp [records]
    rw [hrecords, flatMap_append, map_cons, append_cons, hsplit, append_assoc]
    exact hdrop.append hrest

/-- The records of a run hold the pushed lines in order, less some empty ones; a record that a push
gives holds the lines not emitted before it, from the first that is not empty on, with the pushed
line exactly when it says so. -/
theorem framed_lines_exact (lines : List PhysicalLine) :
    DropsEmpty (lines.map strippedLine)
        ((({} : LogicalRecordFramer).records lines).flatMap recordLines) ∧
      ∀ (before : List PhysicalLine) (line : PhysicalLine) (r : FramedRecord),
        ((({} : LogicalRecordFramer).pushLines before).pushLine line).2 = some r →
          recordLines r =
            fromFirst (({} : LogicalRecordFramer).notYetEmitted [] before ++
              if r.includesPushedLine then [strippedLine line] else []) := by
  refine ⟨dropsEmpty_records owes_new lines, ?_⟩
  intro before line r hr
  exact ((owes_new.run before).push line).2 r hr

end ContextDesk.LogAnalysis.LogicalRecordFramer
