import ContextDesk.Lib.Runs
import ContextDesk.MemoryStoreSpec

/-!
# The full-text entries over whole runs

The entries are kept by hand: a new record adds one, `Supersede`, `Retract` and a purge take one
away, `UpdateMeta` leaves them alone. `Mirrored` is what they should be: one entry for each active
record, with its title and content, and none for any other. A status set by `UpdateMeta` breaks it
in both directions (`status_leaves_entries`); so does a purge that stops between the entry and the
row. Every run without these keeps it (`reached_mirrored`).
-/

namespace ContextDesk.Memory

open Lib

variable {env : Env}

def entryOf (id : Uuid) (row : MemoryRow) : List FtsEntry :=
  if row.status = .active then [⟨row.content, row.title, id⟩] else []

/-- One entry for each active record, with what the record holds, and no other. -/
def Mirrored (db : MemoryDb) : Prop :=
  ∀ id, (db.fts.filter fun e => e.memoryId = id) = ((db.memory.lookup id).map (entryOf id)).getD []

/-- A call that does not change whether a record is active behind its full-text entry. -/
def KeepsEntries (conn : Connection MemoryDb) (call : Call) : Prop :=
  match call.request with
  | .put (.updateMeta id _ _ _ (some status)) _ _ =>
    ∀ row, conn.db.memory.lookup id = some row → (status = .active ↔ row.status = .active)
  | .purgeGdpr id _ _ =>
    dropsEntryOnly call.faults = true →
      ∀ row, conn.db.memory.lookup id = some row → row.status ≠ .active
  | _ => True

/-! ## Entries of one record -/

theorem filter_drop (fts : List FtsEntry) (dropped id : Uuid) :
    ((fts.filter fun e => e.memoryId ≠ dropped).filter fun e => e.memoryId = id) =
      if id = dropped then [] else fts.filter fun e => e.memoryId = id := by
  rw [List.filter_filter]
  by_cases h : id = dropped
  · rw [if_pos h, List.filter_eq_nil_iff]
    intro e _
    simp [h]
  · rw [if_neg h]
    apply List.filter_congr
    intro e _
    by_cases he : e.memoryId = id
    · simp [he, h]
    · simp [he]

variable {id : Uuid} {db db' : MemoryDb}

theorem Mirrored.created {draft : MemoryDraft} {now : Int} {supersedes : Option Uuid}
    (h : Mirrored db) (hnew : Created env draft id now supersedes db db') : Mirrored db' := by
  obtain ⟨-, content, title, hmem, hfts⟩ := hnew
  intro id'
  rw [hfts, hmem, List.filter_append, filter_drop, Keyed.lookup_insert]
  by_cases hid : id' = id
  · simp [hid, entryOf, draftRow]
  · rw [if_neg hid, if_neg hid, h id']
    simp [Ne.symm hid]

theorem Mirrored.dropped {set : MemoryRow → MemoryRow} (h : Mirrored db)
    (hmem : db'.memory = Keyed.updateAt id set db.memory)
    (hset : ∀ row, (set row).status ≠ .active)
    (hfts : db'.fts = db.fts.filter fun e => e.memoryId ≠ id) : Mirrored db' := by
  intro id'
  rw [hfts, hmem, filter_drop, Keyed.lookup_updateAt]
  by_cases hid : id' = id
  · rw [if_pos hid, if_pos hid]
    cases db.memory.lookup id' with
    | none => rfl
    | some row => simp [entryOf, hset row]
  · rw [if_neg hid, if_neg hid]
    exact h id'

theorem Mirrored.updated {set : MemoryRow → MemoryRow} (h : Mirrored db)
    (hmem : db'.memory = Keyed.updateAt id set db.memory)
    (hset : ∀ row, db.memory.lookup id = some row → entryOf id (set row) = entryOf id row)
    (hfts : db'.fts = db.fts) : Mirrored db' := by
  intro id'
  rw [hfts, hmem, Keyed.lookup_updateAt, h id']
  by_cases hid : id' = id
  · rw [if_pos hid, hid]
    cases hrow : db.memory.lookup id with
    | none => rfl
    | some row => exact (hset row hrow).symm
  · rw [if_neg hid]

/-! ## Steps -/

theorem serve_mirrored (conn : Connection MemoryDb) (call : Call) (h : Mirrored conn.db)
    (hkeeps : KeepsEntries conn call) : Mirrored (serve env conn call).2.db := by
  rcases serve_cases env conn call with ⟨hmem, hfts⟩ | heffect |
    ⟨id, now, reason, hrequest, hmember, hdrops, hmem, hfts⟩
  · intro id
    rw [hmem, hfts]
    exact h id
  · obtain ⟨request, faults, commitFails⟩ := call
    generalize (serve env conn ⟨request, faults, commitFails⟩).2.db = db' at heffect ⊢
    cases heffect with
    | insert hnew => exact h.created hnew
    | imported hnew => exact h.created hnew
    | @updateMeta id newId tags pinned validTo status now hold hmem hfts =>
      refine h.updated hmem ?_ hfts
      intro row hrow
      cases status with
      | none => rfl
      | some status =>
        have hiff : status = .active ↔ row.status = .active := hkeeps row hrow
        simp only [entryOf, metaRow, Option.getD_some, hiff]
    | supersede mid hold hnew hmem hfts =>
      exact (h.created hnew).dropped hmem (fun _ => by simp [supersededRow, stamp]) hfts
    | retract hold hmem hfts =>
      exact h.dropped hmem (fun _ => by simp [retractedRow, stamp]) hfts
    | @purge id now reason hold hmem hfts =>
      intro id'
      rw [hfts, hmem, filter_drop, Keyed.lookup_updateAll, Keyed.lookup_erase]
      by_cases hid : id' = id
      · rw [if_pos hid, if_pos hid]
        rfl
      · rw [if_neg hid, if_neg hid, h id']
        cases conn.db.memory.lookup id' <;> rfl
  · obtain ⟨request, faults, commitFails⟩ := call
    cases hrequest
    obtain ⟨row, hrow⟩ := Keyed.exists_of_mem hmember
    have hinactive : row.status ≠ .active := hkeeps hdrops row hrow
    intro id'
    rw [hfts, hmem, filter_drop]
    by_cases hid : id' = id
    · rw [if_pos hid, hid, hrow]
      simp [entryOf, hinactive]
    · rw [if_neg hid]
      exact h id'

/-! ## Runs -/

theorem reached_mirrored (env : Env) {conn : Connection MemoryDb}
    (h : Reached (fun conn call => (serve env conn call).2) KeepsEntries openStore conn) :
    Mirrored conn.db := by
  refine h.invariant ?_ serve_mirrored
  intro id
  rfl

/-- A note superseded, its successor retracted, and the note that was superseded purged. -/
theorem reached_mirrored_purge :
    Mirrored (serveAll plainEnv openStore
      [addCall plantsNote 1 10, supersedeCall 1 teaNote 2 20, retractCall 2 30,
        purgeCall 1 40 []]).db := by
  refine @reached_mirrored plainEnv _ ?_
  refine .step (.step (.step (.step .start (addCall plantsNote 1 10) ?_)
    (supersedeCall 1 teaNote 2 20) ?_) (retractCall 2 30) ?_) (purgeCall 1 40 []) ?_
  · trivial
  · trivial
  · trivial
  · intro hdrops
    exact absurd hdrops (by decide)

/-- A record retracted by `UpdateMeta` keeps its entry; one made active again has none. A purge
whose last `DELETE` fails leaves an active record without its entry. -/
theorem status_leaves_entries :
    ¬ Mirrored (serveAll plainEnv openStore
      [addCall plantsNote 1 10, statusCall 1 .retracted 20]).db ∧
    ¬ Mirrored (serveAll plainEnv openStore
      [addCall plantsNote 1 10, retractCall 1 20, statusCall 1 .active 30]).db ∧
    ¬ Mirrored (serveAll plainEnv openStore
      [addCall plantsNote 1 10, purgeCall 1 20 (List.replicate 7 false ++ [true])]).db := by
  refine ⟨fun h => ?_, fun h => ?_, fun h => ?_⟩
  · exact absurd (h 1) (by decide +kernel)
  · exact absurd (h 1) (by decide +kernel)
  · exact absurd (h 1) (by decide +kernel)

end ContextDesk.Memory
