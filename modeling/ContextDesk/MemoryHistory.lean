import ContextDesk.MemoryStoreSpec

/-!
# The history of a record

What a record is about is written once. Over any run whose commits succeed a record keeps its kind,
texts, hash, structured data, scope, source and time of creation, its revision grows with each
`put` that names it, and it goes only by a purge of its id (`serveAll_history`). Its link to the
record it superseded is cleared when that one is purged (`purge_clears_supersedes`), which no
revision tells. A `put` that fails leaves everything as it was.
-/

namespace ContextDesk.Memory

open Lib

variable {env : Env} {id : Uuid} {row : MemoryRow}

structure Frozen (before after : MemoryRow) : Prop where
  kind : after.kind = before.kind
  title : after.title = before.title
  content : after.content = before.content
  contentHash : after.contentHash = before.contentHash
  structured : after.structured = before.structured
  scope : after.scope = before.scope
  source : after.source = before.source
  createdAt : after.createdAt = before.createdAt

theorem Frozen.refl (row : MemoryRow) : Frozen row row := ⟨rfl, rfl, rfl, rfl, rfl, rfl, rfl, rfl⟩

theorem Frozen.trans {a b c : MemoryRow} (h : Frozen a b) (h' : Frozen b c) : Frozen a c :=
  ⟨h'.kind.trans h.kind, h'.title.trans h.title, h'.content.trans h.content,
    h'.contentHash.trans h.contentHash, h'.structured.trans h.structured,
    h'.scope.trans h.scope, h'.source.trans h.source, h'.createdAt.trans h.createdAt⟩

/-- The record that a `put` changes. -/
def changes (id : Uuid) : Request → Bool
  | .put (.updateMeta target _ _ _ _) _ _ => target = id
  | .put (.supersede old _) _ _ => old = id
  | .put (.retract target) _ _ => target = id
  | _ => false

def purges (id : Uuid) : Request → Bool
  | .purgeGdpr target _ _ => target = id
  | _ => false

def Purged (env : Env) (id : Uuid) : Connection MemoryDb → List Call → Prop
  | _, [] => False
  | conn, call :: calls =>
    ((serve env conn call).1 = true ∧ purges id call.request = true) ∨
      Purged env id (serve env conn call).2 calls

/-- How many successful `put`s of a run change a record. -/
def revisions (env : Env) (id : Uuid) : Connection MemoryDb → List Call → Nat
  | _, [] => 0
  | conn, call :: calls =>
    ((serve env conn call).1 && changes id call.request).toNat +
      revisions env id (serve env conn call).2 calls

/-! ## Steps -/

theorem lookup_touched {db db' : MemoryDb} {target : Uuid} {set : MemoryRow → MemoryRow}
    (hrow : db.memory.lookup id = some row)
    (hmem : db'.memory.lookup id = (Keyed.updateAt target set db.memory).lookup id)
    (hset : Frozen row (set row) ∧ (set row).supersedes = row.supersedes ∧
      row.rev + 1 ≤ (set row).rev) :
    ∃ row', db'.memory.lookup id = some row' ∧ Frozen row row' ∧
      row'.supersedes = row.supersedes ∧
      row.rev + ((decide (target = id)).toNat : Int) ≤ row'.rev := by
  rw [hmem, Keyed.lookup_updateAt]
  by_cases ht : id = target
  · rw [if_pos ht, hrow]
    refine ⟨set row, rfl, hset.1, hset.2.1, ?_⟩
    rw [decide_eq_true ht.symm]
    exact hset.2.2
  · rw [if_neg ht]
    refine ⟨row, hrow, Frozen.refl row, rfl, ?_⟩
    rw [decide_eq_false (Ne.symm ht)]
    simp

theorem Effect.row_kept {db db' : MemoryDb} {request : Request} (h : Effect env db db' request)
    (hrow : db.memory.lookup id = some row) :
    purges id request = true ∨ ∃ row', db'.memory.lookup id = some row' ∧ Frozen row row' ∧
      (row'.supersedes = row.supersedes ∨
        row'.supersedes = none ∧ ∃ old, row.supersedes = some old ∧ purges old request = true) ∧
      row.rev + ((changes id request).toNat : Int) ≤ row'.rev := by
  have hstored := Keyed.mem_of_lookup hrow
  have hcreated : ∀ {draft : MemoryDraft} {newId : Uuid} {now : Int} {supersedes : Option Uuid}
      {db' : MemoryDb}, Created env draft newId now supersedes db db' →
      db'.memory.lookup id = some row := by
    rintro draft newId now supersedes db' ⟨hnew, content, title, hmem, -⟩
    have hne : id ≠ newId := by
      rintro rfl
      exact hnew hstored
    rw [hmem, Keyed.lookup_insert, if_neg hne, hrow]
  cases h with
  | insert hnew => exact Or.inr ⟨row, hcreated hnew, Frozen.refl row, Or.inl rfl, by simp [changes]⟩
  | imported hnew =>
    exact Or.inr ⟨row, hcreated hnew, Frozen.refl row, Or.inl rfl, by simp [changes]⟩
  | updateMeta hold hmem hfts =>
    obtain ⟨row', hrow', hfrozen, hlink, hrev⟩ := lookup_touched hrow (congrArg _ hmem)
      ⟨⟨rfl, rfl, rfl, rfl, rfl, rfl, rfl, rfl⟩, rfl, by simp only [metaRow, metaTouches]; omega⟩
    exact Or.inr ⟨row', hrow', hfrozen, Or.inl hlink, hrev⟩
  | supersede mid hold hnew hmem hfts =>
    obtain ⟨row', hrow', hfrozen, hlink, hrev⟩ := lookup_touched (hcreated hnew) (congrArg _ hmem)
      ⟨⟨rfl, rfl, rfl, rfl, rfl, rfl, rfl, rfl⟩, rfl, Int.le_refl _⟩
    exact Or.inr ⟨row', hrow', hfrozen, Or.inl hlink, hrev⟩
  | retract hold hmem hfts =>
    obtain ⟨row', hrow', hfrozen, hlink, hrev⟩ := lookup_touched hrow (congrArg _ hmem)
      ⟨⟨rfl, rfl, rfl, rfl, rfl, rfl, rfl, rfl⟩, rfl, Int.le_refl _⟩
    exact Or.inr ⟨row', hrow', hfrozen, Or.inl hlink, hrev⟩
  | @purge target now reason hold hmem hfts =>
    by_cases ht : id = target
    · exact Or.inl (decide_eq_true ht.symm)
    · refine Or.inr ⟨MemoryDb.unlink target row, ?_, ⟨rfl, rfl, rfl, rfl, rfl, rfl, rfl, rfl⟩, ?_,
        by simp [changes, MemoryDb.unlink]⟩
      · rw [hmem, Keyed.lookup_updateAll, Keyed.lookup_erase, if_neg ht, hrow]
        rfl
      · unfold MemoryDb.unlink
        by_cases hlink : row.supersedes = some target
        · exact Or.inr ⟨if_pos hlink, target, hlink, decide_eq_true rfl⟩
        · exact Or.inl (if_neg hlink)

/-- With a commit that succeeds, a call that succeeds has its effect; any other changes no row. -/
theorem serve_committed (env : Env) (conn : Connection MemoryDb) {call : Call}
    (hcommit : call.commitFails = false) :
    ((serve env conn call).2.db.memory = conn.db.memory ∧ ∀ id,
      ((serve env conn call).1 && changes id call.request) = false) ∨
    ((serve env conn call).1 = true ∧
      Effect env conn.db (serve env conn call).2.db call.request) := by
  obtain ⟨request, faults, commitFails⟩ := call
  obtain rfl : commitFails = false := hcommit
  cases request with
  | put op newId now =>
    unfold serve
    rcases put_cases env conn faults false op newId now with
      ⟨e, h⟩ | ⟨r, conn', h, hok, -, heffect⟩
    · simp only [h]
      exact Or.inl ⟨trivial, fun id => rfl⟩
    · simp only [h]
      exact Or.inr ⟨hok, heffect⟩
  | putImported id draft now =>
    unfold serve
    rcases putImported_cases env conn faults false id draft now with
      ⟨e, h⟩ | ⟨r, h, -⟩ | ⟨r, conn', h, hok, -, heffect⟩
    · simp only [h]
      exact Or.inl ⟨trivial, fun id => rfl⟩
    · simp only [h]
      exact Or.inl ⟨trivial, fun id => rfl⟩
    · simp only [h]
      exact Or.inr ⟨hok, heffect⟩
  | purgeGdpr id now reason =>
    unfold serve
    rcases purgeGdpr_cases env conn faults false id now reason with
      ⟨-, e, h⟩ | ⟨row, -, hrow, -, -, -, ⟨-, -, -, h⟩ | ⟨-, db', h, hmem, -⟩⟩
    · simp only [h]
      exact Or.inl ⟨trivial, fun id => rfl⟩
    · simp only [h, Bool.false_eq_true, if_false]
      exact Or.inr ⟨rfl, .purge (Keyed.mem_of_lookup hrow) rfl rfl⟩
    · simp only [h]
      exact Or.inl ⟨hmem, fun id => rfl⟩

theorem serve_row (env : Env) (conn : Connection MemoryDb) {call : Call}
    (hcommit : call.commitFails = false) (hrow : conn.db.memory.lookup id = some row) :
    ((serve env conn call).1 = true ∧ purges id call.request = true) ∨
    ∃ row', (serve env conn call).2.db.memory.lookup id = some row' ∧ Frozen row row' ∧
      (row'.supersedes = row.supersedes ∨ row'.supersedes = none ∧ ∃ old,
        row.supersedes = some old ∧ (serve env conn call).1 = true ∧
        purges old call.request = true) ∧
      row.rev + (((serve env conn call).1 && changes id call.request).toNat : Int) ≤ row'.rev := by
  rcases serve_committed env conn hcommit with ⟨hmem, hnone⟩ | ⟨hok, heffect⟩
  · refine Or.inr ⟨row, by rw [hmem, hrow], Frozen.refl row, Or.inl rfl, ?_⟩
    rw [hnone id]
    simp
  · rw [hok, Bool.true_and]
    rcases heffect.row_kept hrow with hpurged | ⟨row', hrow', hfrozen, hlink, hrev⟩
    · exact Or.inl ⟨rfl, hpurged⟩
    · refine Or.inr ⟨row', hrow', hfrozen, ?_, hrev⟩
      rcases hlink with hlink | ⟨hlink, old, hold, hpurged⟩
      · exact Or.inl hlink
      · exact Or.inr ⟨hlink, old, hold, rfl, hpurged⟩

/-! ## Runs -/

theorem serveAll_row (env : Env) {calls : List Call}
    (hcommit : ∀ call ∈ calls, call.commitFails = false) (conn : Connection MemoryDb)
    (hrow : conn.db.memory.lookup id = some row) :
    Purged env id conn calls ∨
    ∃ row', (serveAll env conn calls).db.memory.lookup id = some row' ∧ Frozen row row' ∧
      (row'.supersedes = row.supersedes ∨ row'.supersedes = none ∧ ∃ old,
        row.supersedes = some old ∧ Purged env old conn calls) ∧
      row.rev + (revisions env id conn calls : Int) ≤ row'.rev := by
  induction calls generalizing conn row with
  | nil => exact Or.inr ⟨row, hrow, Frozen.refl row, Or.inl rfl, by simp [revisions]⟩
  | cons call calls ih =>
    obtain ⟨hcall, hcalls⟩ := List.forall_mem_cons.mp hcommit
    unfold Purged revisions serveAll
    rw [List.foldl_cons]
    rcases serve_row env conn hcall hrow with hpurged | ⟨mid, hmid, hfrozen, hlink, hrev⟩
    · exact Or.inl (Or.inl hpurged)
    · rcases ih hcalls _ hmid with hpurged | ⟨row', hrow', hfrozen', hlink', hrev'⟩
      · exact Or.inl (Or.inr hpurged)
      · refine Or.inr ⟨row', hrow', hfrozen.trans hfrozen', ?_, by push_cast; omega⟩
        rcases hlink with hlink | ⟨hlink, old, hold, hpurged⟩
        · rw [hlink] at hlink'
          rcases hlink' with hlink' | ⟨hlink', old, hold, hpurged⟩
          · exact Or.inl hlink'
          · exact Or.inr ⟨hlink', old, hold, Or.inr hpurged⟩
        · rcases hlink' with hlink' | ⟨-, old', hold', -⟩
          · exact Or.inr ⟨hlink'.trans hlink, old, hold, Or.inl hpurged⟩
          · rw [hlink] at hold'
            cases hold'

/-- A record over a run whose commits succeed; and what a `put` that fails after such a run leaves,
and a `put_imported` of what is there. -/
theorem serveAll_history (env : Env) (conn : Connection MemoryDb) (calls : List Call)
    (hcommit : ∀ call ∈ calls, call.commitFails = false) :
    (∀ id row, conn.db.memory.lookup id = some row →
      Purged env id conn calls ∨
      ∃ row', (serveAll env conn calls).db.memory.lookup id = some row' ∧ Frozen row row' ∧
        (row'.supersedes = row.supersedes ∨ row'.supersedes = none ∧ ∃ old,
          row.supersedes = some old ∧ Purged env old conn calls) ∧
        row.rev + (revisions env id conn calls : Int) ≤ row'.rev) ∧
    (∀ faults op newId now e conn',
      put env (serveAll env conn calls) faults false op newId now = (.error e, conn') →
      conn' = serveAll env conn calls) ∧
    (∀ faults commitFails id draft now, id ∈ (serveAll env conn calls).db.memory →
      (putImported env (serveAll env conn calls) faults commitFails id draft now).2 =
        serveAll env conn calls) := by
  refine ⟨fun id row hrow => serveAll_row env hcommit conn hrow, ?_, ?_⟩
  · intro faults op newId now e conn' h
    rcases put_cases env (serveAll env conn calls) faults false op newId now with
      ⟨e', h'⟩ | ⟨r, conn'', h', hok, -, -⟩
    · rw [h'] at h
      exact (congrArg Prod.snd h).symm
    · rw [h'] at h
      cases h
      cases hok
  · intro faults commitFails id draft now hid
    rcases putImported_cases env (serveAll env conn calls) faults commitFails id draft now with
      ⟨e, h⟩ | ⟨r, h, -⟩ | ⟨r, conn', -, -, -, heffect⟩
    · rw [h]
    · rw [h]
    · cases heffect with
      | imported hnew => exact absurd hid hnew.1

/-- A note that is retracted keeps its text and gets a new revision. -/
theorem serveAll_history_retract :
    ∃ row', (serveAll plainEnv (serveAll plainEnv openStore [addCall plantsNote 1 10])
        [retractCall 1 20]).db.memory.lookup 1 = some row' ∧
      row'.content = "water the plants".toList ∧ 2 ≤ row'.rev := by
  have hcommit : ∀ call ∈ [retractCall 1 20], call.commitFails = false := by
    simp [retractCall]
  have hhistory := (serveAll_history plainEnv
    (serveAll plainEnv openStore [addCall plantsNote 1 10]) [retractCall 1 20] hcommit).1
  rcases hhistory 1 _ rfl with hpurged | ⟨row', hrow', hfrozen, -, hrev⟩
  · rcases hpurged with ⟨-, hpurges⟩ | hpurged
    · cases hpurges
    · cases hpurged
  · refine ⟨row', hrow', hfrozen.content.trans (by decide +kernel), ?_⟩
    have hrevisions : revisions plainEnv 1 (serveAll plainEnv openStore [addCall plantsNote 1 10])
        [retractCall 1 20] = 1 := by decide +kernel
    rw [hrevisions] at hrev
    exact hrev

/-- A purge clears the link of the record that superseded it, and leaves its revision. -/
theorem purge_clears_supersedes :
    ((serveAll plainEnv openStore [addCall plantsNote 1 10,
      supersedeCall 1 teaNote 2 20]).db.memory.lookup 2).map (fun row => (row.supersedes, row.rev)) =
        some (some 1, 1) ∧
    ((serveAll plainEnv openStore [addCall plantsNote 1 10, supersedeCall 1 teaNote 2 20,
      purgeCall 1 30 []]).db.memory.lookup 2).map (fun row => (row.supersedes, row.rev)) =
        some (none, 1) := by
  decide +kernel

end ContextDesk.Memory
