import ContextDesk.Lib.Runs
import Mathlib.Data.List.Basic

/-!
# A boundary that restores a snapshot

Calls share a store and a list of rows. One call at a time is inside the boundary, which has the
snapshot of the store that was taken when the call entered. When the call fails, the snapshot is
restored and the rows that the call appended are removed by their ids. Other calls may write at the
same time, outside the boundary.

`log` is what the calls wrote, without what a failed call wrote inside the boundary. A store is
`Isolated` when it is what its log writes. Every step keeps that but a rollback, and a rollback keeps
it when no other call has written the store since the snapshot.
-/

namespace ContextDesk.Lib.Boundary

open List

variable {κ σ ρ : Type}

inductive Effect (σ ρ : Type) where
  | write (f : σ → σ)
  | record (id : Nat) (row : ρ)

structure Entry (κ σ ρ : Type) where
  call : κ
  effect : Effect σ ρ

def Entry.apply (e : Entry κ σ ρ) (store : σ) : σ :=
  match e.effect with
  | .write f => f store
  | .record .. => store

def Entry.row (e : Entry κ σ ρ) : Option (Nat × ρ) :=
  match e.effect with
  | .write _ => none
  | .record id row => some (id, row)

/-- The store that a log writes. -/
def written (store : σ) (log : List (Entry κ σ ρ)) : σ := log.foldl (fun s e => e.apply s) store

/-- The rows that a log appends. -/
def recorded (log : List (Entry κ σ ρ)) : List (Nat × ρ) := log.filterMap Entry.row

structure Inside (κ σ : Type) where
  call : κ
  snapshot : σ
  /-- The ids of the rows that the call has appended. -/
  tracked : List Nat := []

structure Shared (κ σ ρ : Type) where
  store : σ
  rows : List (Nat × ρ) := []
  nextId : Nat := 1
  inside : Option (Inside κ σ) := none
  /-- The log up to the last snapshot. -/
  before : List (Entry κ σ ρ) := []
  /-- The log since the last snapshot. -/
  since : List (Entry κ σ ρ) := []
  /-- Everything that was ever written. -/
  made : List (Entry κ σ ρ) := []
  /-- The calls that have returned to their caller. -/
  returned : List κ := []
  /-- The calls that were rolled back. -/
  undone : List κ := []

def Shared.log (s : Shared κ σ ρ) : List (Entry κ σ ρ) := s.before ++ s.since

inductive Move (κ σ ρ : Type) where
  | enter (call : κ)
  | write (call : κ) (f : σ → σ)
  | record (call : κ) (row : ρ)
  | commit (call : κ)
  | rollback (call : κ)
  | returns (call : κ)

def Shared.logged (s : Shared κ σ ρ) (e : Entry κ σ ρ) : Shared κ σ ρ :=
  { s with since := s.since ++ [e], made := s.made ++ [e] }

def Shared.entered (s : Shared κ σ ρ) (call : κ) : Shared κ σ ρ :=
  { s with inside := some ⟨call, s.store, []⟩, before := s.log, since := [] }

section

variable [DecidableEq κ]

def Inside.track (i : Inside κ σ) (call : κ) (id : Nat) : Inside κ σ :=
  if i.call = call then { i with tracked := i.tracked ++ [id] } else i

def Shared.undo (s : Shared κ σ ρ) (i : Inside κ σ) : Shared κ σ ρ :=
  { s with
    store := i.snapshot
    rows := s.rows.filter (·.1 ∉ i.tracked)
    inside := none
    before := s.before ++ s.since.filter (·.call ≠ i.call)
    since := []
    undone := i.call :: s.undone }

/-- A call that finds the boundary taken waits; only the call inside leaves it. -/
def Shared.step (s : Shared κ σ ρ) : Move κ σ ρ → Shared κ σ ρ
  | .enter call =>
    match s.inside with
    | some _ => s
    | none => s.entered call
  | .write call f => { s with store := f s.store }.logged ⟨call, .write f⟩
  | .record call row =>
    { s with
      rows := s.rows ++ [(s.nextId, row)]
      nextId := s.nextId + 1
      inside := s.inside.map fun i : Inside κ σ => i.track call s.nextId }.logged ⟨call, .record s.nextId row⟩
  | .commit call =>
    match s.inside with
    | some i => if i.call = call then { s with inside := none } else s
    | none => s
  | .rollback call =>
    match s.inside with
    | some i => if i.call = call then s.undo i else s
    | none => s
  | .returns call => { s with returned := call :: s.returned }

/-- Nothing was written yet, and no row has an id of a row to come. -/
structure Fresh (s : Shared κ σ ρ) : Prop where
  inside : s.inside = none
  log : s.log = []
  made : s.made = []
  rows : ∀ row ∈ s.rows, row.1 < s.nextId

/-- The store and the rows are what the log writes, and the log has everything that the calls that
were not rolled back wrote. -/
structure Isolated (start s : Shared κ σ ρ) : Prop where
  store : s.store = written start.store s.log
  rows : s.rows = start.rows ++ recorded s.log
  kept : ∀ e ∈ s.made, e.call ∉ s.undone → e ∈ s.log

/-- Since the snapshot of the call inside, the other calls have appended rows at most. -/
def Alone (s : Shared κ σ ρ) : Prop :=
  ∀ i ∈ s.inside, ∀ e ∈ s.since, e.call ≠ i.call → ∃ row, e.row = some row

/-- The condition on a move: the call that is rolled back was alone. -/
def Meets (s : Shared κ σ ρ) : Move κ σ ρ → Prop
  | .rollback _ => Alone s
  | _ => True

end

/-! ## Logs -/

theorem written_append (store : σ) (a b : List (Entry κ σ ρ)) :
    written store (a ++ b) = written (written store a) b := foldl_append

theorem recorded_append (a b : List (Entry κ σ ρ)) :
    recorded (a ++ b) = recorded a ++ recorded b := filterMap_append

/-- Rows write nothing in the store. -/
theorem written_rows {log : List (Entry κ σ ρ)} (h : ∀ e ∈ log, ∃ row, e.row = some row)
    (store : σ) : written store log = store := by
  induction log generalizing store with
  | nil => rfl
  | cons e log ih =>
    obtain ⟨row, hrow⟩ := h e mem_cons_self
    have hsame : e.apply store = store := by
      unfold Entry.row at hrow
      unfold Entry.apply
      split at hrow
      · cases hrow
      · rfl
    rw [written, foldl_cons, hsame]
    exact ih (fun e he => h e (mem_cons_of_mem _ he)) store

/-- Removing rows by their ids removes the entries that appended them. -/
theorem recorded_filter {log : List (Entry κ σ ρ)} {keep : Entry κ σ ρ → Bool} {ids : List Nat}
    (h : ∀ e ∈ log, ∀ row, e.row = some row → (row.1 ∉ ids ↔ keep e = true)) :
    (recorded log).filter (·.1 ∉ ids) = recorded (log.filter keep) := by
  induction log with
  | nil => rfl
  | cons e log ih =>
    have ih := ih fun e he => h e (mem_cons_of_mem _ he)
    cases hrow : e.row with
    | none =>
      rw [recorded, filterMap_cons_none hrow]
      refine ih.trans ?_
      rw [filter_cons]
      split
      · rw [recorded, recorded, filterMap_cons_none hrow]
      · rfl
    | some row =>
      have hkeep := h e mem_cons_self row hrow
      rw [recorded, filterMap_cons_some hrow, filter_cons, filter_cons]
      by_cases hid : row.1 ∉ ids
      · rw [if_pos (decide_eq_true hid), if_pos (hkeep.mp hid), recorded,
          filterMap_cons_some hrow]
        exact congrArg _ ih
      · rw [if_neg (by rwa [decide_eq_true_eq]), if_neg (fun hk => hid (hkeep.mpr hk))]
        exact ih

/-! ## Runs -/

variable {start s : Shared κ σ ρ}

/-- What is known of the call inside. -/
structure InsideSound (start s : Shared κ σ ρ) (i : Inside κ σ) : Prop where
  snapshot : i.snapshot = written start.store s.before
  old : ∀ row ∈ start.rows ++ recorded s.before, row.1 ∉ i.tracked
  own : ∀ e ∈ s.since, ∀ row, e.row = some row → (row.1 ∈ i.tracked ↔ e.call = i.call)
  tracked : ∀ id ∈ i.tracked, id < s.nextId

structure Sound (start s : Shared κ σ ρ) : Prop extends Isolated start s where
  ids : ∀ row ∈ s.rows, row.1 < s.nextId
  insideSound : ∀ i ∈ s.inside, InsideSound start s i

theorem sound_of_fresh (h : Fresh start) : Sound start start where
  store := by rw [h.log]; rfl
  rows := by rw [h.log]; exact (append_nil _).symm
  kept := by rw [h.made]; exact fun e he => absurd he not_mem_nil
  ids := h.rows
  insideSound := by rw [h.inside]; exact fun i hi => by cases hi

theorem log_entered (s : Shared κ σ ρ) (call : κ) : (s.entered call).log = s.log :=
  append_nil _

theorem log_logged (s : Shared κ σ ρ) (e : Entry κ σ ρ) : (s.logged e).log = s.log ++ [e] :=
  (append_assoc _ _ _).symm

theorem kept_logged {e : Entry κ σ ρ} (h : ∀ e ∈ s.made, e.call ∉ s.undone → e ∈ s.log) :
    ∀ e' ∈ (s.logged e).made, e'.call ∉ (s.logged e).undone → e' ∈ (s.logged e).log := by
  intro e' he' hundone
  rw [log_logged]
  rcases mem_append.mp he' with he' | he'
  · exact mem_append_left _ (h e' he' hundone)
  · exact mem_append_right _ he'

theorem sound_enter (h : Sound start s) (call : κ) : Sound start (s.entered call) where
  store := h.store.trans (congrArg (written start.store) (log_entered s call).symm)
  rows := h.rows.trans (congrArg (start.rows ++ recorded ·) (log_entered s call).symm)
  kept e he hundone := by
    rw [log_entered]
    exact h.kept e he hundone
  ids := h.ids
  insideSound i hi := by
    cases hi
    exact ⟨h.store, fun _ _ => not_mem_nil, fun e he => absurd he not_mem_nil,
      fun id hid => absurd hid not_mem_nil⟩

theorem sound_leave (h : Sound start s) : Sound start { s with inside := none } where
  store := h.store
  rows := h.rows
  kept := h.kept
  ids := h.ids
  insideSound i hi := by cases hi

variable [DecidableEq κ]

theorem sound_write (h : Sound start s) (call : κ) (f : σ → σ) :
    Sound start (s.step (.write call f)) where
  store := by
    refine Eq.trans ?_ (congrArg (written start.store) (log_logged _ _)).symm
    rw [written_append]
    exact congrArg f h.store
  rows := by
    refine Eq.trans ?_ (congrArg (start.rows ++ recorded ·) (log_logged _ _)).symm
    rw [recorded_append]
    exact h.rows.trans (congrArg _ (append_nil _).symm)
  kept := kept_logged h.kept
  ids := h.ids
  insideSound i hi := by
    have hsound := h.insideSound i hi
    refine ⟨hsound.snapshot, hsound.old, ?_, hsound.tracked⟩
    intro e he row hrow
    rcases mem_append.mp he with he | he
    · exact hsound.own e he row hrow
    · rw [mem_singleton.mp he] at hrow
      cases hrow

theorem sound_record (h : Sound start s) (call : κ) (row : ρ) :
    Sound start (s.step (.record call row)) where
  store := by
    refine Eq.trans ?_ (congrArg (written start.store) (log_logged _ _)).symm
    rw [written_append]
    exact h.store
  rows := by
    refine Eq.trans ?_ (congrArg (start.rows ++ recorded ·) (log_logged _ _)).symm
    rw [recorded_append, ← append_assoc]
    exact congrArg (· ++ [(s.nextId, row)]) h.rows
  kept := kept_logged h.kept
  ids r hr := by
    rcases mem_append.mp hr with hr | hr
    · exact Nat.lt_succ_of_lt (h.ids r hr)
    · rw [mem_singleton.mp hr]
      exact Nat.lt_succ_self _
  insideSound i hi := by
    obtain ⟨j, hj, rfl⟩ := Option.map_eq_some_iff.mp hi
    have hsound := h.insideSound j hj
    -- an old id is smaller than the new one
    have hold : ∀ r ∈ start.rows ++ recorded s.log, r.1 < s.nextId := by
      rw [← h.rows]
      exact h.ids
    unfold Inside.track
    split
    · rename_i hcall
      refine ⟨hsound.snapshot, ?_, ?_, ?_⟩
      · intro r hr hmem
        rcases mem_append.mp hmem with hmem | hmem
        · exact hsound.old r hr hmem
        · have hlt := hold r (by
            rw [Shared.log, recorded_append, ← append_assoc]
            exact mem_append_left _ hr)
          rw [mem_singleton.mp hmem] at hlt
          exact Nat.lt_irrefl _ hlt
      · intro e he r hr
        rcases mem_append.mp he with he | he
        · have hlt : r.1 < s.nextId := hold r (by
            rw [Shared.log, recorded_append, ← append_assoc]
            exact mem_append_right _ (mem_filterMap.mpr ⟨e, he, hr⟩))
          rw [← hsound.own e he r hr, mem_append, mem_singleton]
          exact or_iff_left (Nat.ne_of_lt hlt)
        · rw [mem_singleton.mp he] at hr ⊢
          cases hr
          exact iff_of_true (mem_append_right _ (mem_singleton_self _)) hcall.symm
      · intro id hid
        rcases mem_append.mp hid with hid | hid
        · exact Nat.lt_succ_of_lt (hsound.tracked id hid)
        · rw [mem_singleton.mp hid]
          exact Nat.lt_succ_self _
    · rename_i hcall
      refine ⟨hsound.snapshot, hsound.old, ?_, fun id hid =>
        Nat.lt_succ_of_lt (hsound.tracked id hid)⟩
      intro e he r hr
      rcases mem_append.mp he with he | he
      · exact hsound.own e he r hr
      · rw [mem_singleton.mp he] at hr ⊢
        cases hr
        exact iff_of_false (fun hid => Nat.lt_irrefl _ (hsound.tracked _ hid)) (Ne.symm hcall)

/-- A rollback takes back what the call wrote, and nothing else, when the call was alone. -/
theorem sound_undo (h : Sound start s) {i : Inside κ σ} (hi : i ∈ s.inside) (halone : Alone s) :
    Sound start (s.undo i) where
  store := by
    have hsound := h.insideSound i hi
    have hrows : ∀ e ∈ s.since.filter (·.call ≠ i.call), ∃ row, e.row = some row := by
      intro e he
      rw [mem_filter, decide_eq_true_eq] at he
      exact halone i hi e he.1 he.2
    refine Eq.trans hsound.snapshot ?_
    rw [Shared.log, Shared.undo, append_nil, written_append, written_rows hrows]
  rows := by
    have hsound := h.insideSound i hi
    have hsince : (recorded s.since).filter (·.1 ∉ i.tracked) =
        recorded (s.since.filter (·.call ≠ i.call)) := by
      refine recorded_filter fun e he row hrow => ?_
      rw [decide_eq_true_eq, not_iff_not]
      exact hsound.own e he row hrow
    have hold : (start.rows ++ recorded s.before).filter (·.1 ∉ i.tracked) =
        start.rows ++ recorded s.before := by
      refine filter_eq_self.mpr fun row hrow => ?_
      exact decide_eq_true (hsound.old row hrow)
    change s.rows.filter (·.1 ∉ i.tracked) = _
    rw [h.rows, Shared.log, recorded_append, ← append_assoc, filter_append, hold, hsince,
      Shared.log, Shared.undo, append_nil, recorded_append, append_assoc]
  kept e he hundone := by
    obtain ⟨hne, hundone⟩ := not_or.mp (mt mem_cons.mpr hundone)
    rw [Shared.log, Shared.undo, append_nil]
    rcases mem_append.mp (h.kept e he hundone) with he | he
    · exact mem_append_left _ he
    · exact mem_append_right _ (mem_filter.mpr ⟨he, decide_eq_true hne⟩)
  ids row hrow := h.ids row (mem_of_mem_filter hrow)
  insideSound i hi := by cases hi

theorem sound_step (h : Sound start s) (m : Move κ σ ρ) (hm : Meets s m) :
    Sound start (s.step m) := by
  cases m with
  | enter call =>
    simp only [Shared.step]
    split
    · exact h
    · exact sound_enter h call
  | write call f => exact sound_write h call f
  | record call row => exact sound_record h call row
  | commit call =>
    simp only [Shared.step]
    split
    · split
      · exact sound_leave h
      · exact h
    · exact h
  | rollback call =>
    simp only [Shared.step]
    split
    · rename_i i hi
      split
      · exact sound_undo h hi hm
      · exact h
    · exact h
  | returns call =>
    refine ⟨⟨h.store, h.rows, h.kept⟩, h.ids, fun i hi => ?_⟩
    have hsound := h.insideSound i hi
    exact ⟨hsound.snapshot, hsound.old, hsound.own, hsound.tracked⟩

/-- The rule for a run in which every call that is rolled back was alone. -/
theorem isolated_of_run (hfresh : Fresh start) (hrun : Reached Shared.step Meets start s) :
    Isolated start s :=
  (hrun.invariant (sound_of_fresh hfresh) fun _ m h hm => sound_step h m hm).toIsolated

end ContextDesk.Lib.Boundary
