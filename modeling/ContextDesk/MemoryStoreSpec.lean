import ContextDesk.MemoryStore

/-!
# What one call does

Each body that succeeds is read back as what it makes of the records and of the full-text entries:
`insertRow_ok`, `updateMeta_ok`, `supersede_ok` and `retract_ok`. `serve_cases` lists all that a
call can do to the database: nothing, the effect of a body, a purge, or a purge left half done.
-/

namespace ContextDesk.Memory

open Lib Lib.Text

variable {env : Env} {w w' : Work MemoryDb}

/-! ## Statements -/

variable {id : Uuid}

theorem loadRecord_ok {r : Option MemoryRecord} (h : loadRecord id w = (.ok r, w')) :
    w'.db = w.db ∧ r = recordOf w.db id := by
  unfold loadRecord at h
  unfold recordOf
  obtain ⟨row, w₁, hrow, h⟩ := Sql.bind_ok.mp h
  obtain ⟨rfl, hdb₁⟩ := Sql.query_ok hrow
  cases hlookup : w.db.memory.lookup id with
  | none =>
    rw [hlookup] at h
    obtain ⟨rfl, rfl⟩ := Sql.pure_ok.mp h
    exact ⟨hdb₁, rfl⟩
  | some row =>
    rw [hlookup] at h
    obtain ⟨tags, w₂, htags, h⟩ := Sql.bind_ok.mp h
    obtain ⟨rfl, hdb₂⟩ := Sql.query_ok htags
    obtain ⟨rfl, rfl⟩ := Sql.pure_ok.mp h
    rw [hdb₁] at hdb₂ ⊢
    exact ⟨hdb₂, rfl⟩

variable {u : Unit}

theorem insertTags_ok {tags : List Text} (h : insertTags id tags w = (.ok u, w')) :
    w'.db.memory = w.db.memory ∧ w'.db.fts = w.db.fts := by
  induction tags generalizing w with
  | nil =>
    obtain ⟨-, rfl⟩ := Sql.pure_ok.mp h
    exact ⟨rfl, rfl⟩
  | cons tag tags ih =>
    obtain ⟨u', w₁, htag, h⟩ := Sql.bind_ok.mp h
    obtain ⟨hmem, hfts⟩ := ih h
    have hdb := Sql.statement_ok htag
    unfold MemoryDb.insertTag at hdb
    split at hdb
    · cases hdb
    · simp only [Option.some.injEq, Prod.mk.injEq] at hdb
      rw [hmem, hfts, ← hdb.2]
      split <;> exact ⟨rfl, rfl⟩

theorem replaceTags_ok {tags : List Text} (h : replaceTags env id tags w = (.ok u, w')) :
    w'.db.memory = w.db.memory ∧ w'.db.fts = w.db.fts := by
  unfold replaceTags at h
  cases hs : sanitizeMemoryTags env tags with
  | error e =>
    rw [hs] at h
    exact absurd h Sql.fail_ok
  | ok kept =>
    rw [hs] at h
    obtain ⟨u', w₁, hdel, h⟩ := Sql.bind_ok.mp h
    obtain ⟨hmem, hfts⟩ := insertTags_ok h
    rw [hmem, hfts, Sql.execute_ok hdel]
    exact ⟨rfl, rfl⟩

theorem ftsUpsert_ok {content title : Text} (h : ftsUpsert id content title w = (.ok u, w')) :
    w'.db.memory = w.db.memory ∧
      w'.db.fts = (w.db.fts.filter fun e => e.memoryId ≠ id) ++ [⟨content, title, id⟩] := by
  unfold ftsUpsert at h
  obtain ⟨u', w₁, hdel, h⟩ := Sql.bind_ok.mp h
  rw [Sql.execute_ok h, Sql.execute_ok hdel]
  exact ⟨rfl, rfl⟩

/-! ## Bodies -/

def Created (env : Env) (draft : MemoryDraft) (id : Uuid) (now : Int) (supersedes : Option Uuid)
    (db db' : MemoryDb) : Prop :=
  id ∉ db.memory ∧ ∃ content title,
    db'.memory = db.memory.insert id (draftRow env draft content title now supersedes 1) ∧
    db'.fts = (db.fts.filter fun e => e.memoryId ≠ id) ++ [⟨content, title, id⟩]

variable {r : MemoryRecord} {now : Int}

theorem insertRow_ok {draft : MemoryDraft} {supersedes : Option Uuid}
    (h : insertRow env draft id now supersedes 1 w = (.ok r, w')) :
    Created env draft id now supersedes w.db w'.db := by
  unfold insertRow at h
  simp only at h
  split at h
  · exact absurd h Sql.fail_ok
  generalize (if trim draft.title = [] then _ else draft.title : Text) = titleRaw at h
  split at h
  · exact absurd h Sql.fail_ok
  obtain ⟨u₁, w₁, hinsert, h⟩ := Sql.bind_ok.mp h
  obtain ⟨u₂, w₂, htags, h⟩ := Sql.bind_ok.mp h
  obtain ⟨u₃, w₃, hfts, h⟩ := Sql.bind_ok.mp h
  obtain ⟨loaded, w₄, hload, h⟩ := Sql.bind_ok.mp h
  have hw₄ : w' = w₄ := by
    cases loaded with
    | none => exact absurd h Sql.fail_ok
    | some record => exact (Sql.pure_ok.mp h).2.symm
  have hdb₁ := Sql.statement_ok hinsert
  unfold MemoryDb.insertMemory at hdb₁
  split at hdb₁
  · cases hdb₁
  rename_i hnew
  rw [not_or] at hnew
  simp only [Option.some.injEq, Prod.mk.injEq] at hdb₁
  obtain ⟨hmem₂, hfts₂⟩ := replaceTags_ok htags
  obtain ⟨hmem₃, hfts₃⟩ := ftsUpsert_ok hfts
  obtain ⟨hdb₄, -⟩ := loadRecord_ok hload
  refine ⟨hnew.1, kept (env.redactCandidate draft.content) draft.content,
    kept (env.redactCandidate titleRaw) titleRaw, ?_, ?_⟩
  · rw [hw₄, hdb₄, hmem₃, hmem₂, ← hdb₁.2]
  · rw [hw₄, hdb₄, hfts₃, hfts₂, ← hdb₁.2]

def supersededRow (newId : Uuid) (now : Int) : MemoryRow → MemoryRow :=
  stamp now fun r =>
    { r with status := .superseded, validTo := some now, supersededBy := some newId }

def retractedRow (now : Int) : MemoryRow → MemoryRow :=
  stamp now fun r => { r with status := .retracted }

/-- A row after `UpdateMeta`, in so many statements. -/
def metaRow (pinned : Option Bool) (validTo : Option Int) (status : Option Status) (now : Int)
    (touches : Nat) (row : MemoryRow) : MemoryRow :=
  { row with
    pinned := pinned.getD row.pinned
    validTo := validTo.or row.validTo
    status := status.getD row.status
    updatedAt := now
    rev := row.rev + touches }

/-- Every part that is given is a statement; one is made when none is. -/
def metaTouches (pinned : Option Bool) (validTo : Option Int) (status : Option Status)
    (tags : Option (List Text)) : Nat :=
  max 1 (pinned.isSome.toNat + validTo.isSome.toNat + status.isSome.toNat + tags.isSome.toNat)

theorem forSome_update_ok {α : Type} {o : Option α} {set : α → MemoryRow → MemoryRow}
    (h : Sql.forSome o (fun a => Sql.execute CoreError.sql
      (MemoryDb.updateMemory id (stamp now (set a)))) w = (.ok u, w')) :
    w'.db = w.db.updateMemory id fun row => o.elim row fun a => stamp now (set a) row := by
  cases o with
  | none =>
    obtain ⟨-, rfl⟩ := Sql.pure_ok.mp h
    simp only [MemoryDb.updateMemory, Option.elim_none, Keyed.updateAt_self]
  | some a => exact Sql.execute_ok h

/-- A record that is read once more is only read. -/
theorem reload_ok {next : Option MemoryRecord → Statements MemoryRecord} {r : MemoryRecord}
    {e : CoreError} (hnone : next none = Sql.fail e) (hsome : ∀ r, next (some r) = pure r)
    (h : (loadRecord id >>= next) w = (.ok r, w')) : w'.db = w.db := by
  obtain ⟨again, w₁, hagain, h⟩ := Sql.bind_ok.mp h
  rw [← (loadRecord_ok hagain).1]
  cases again with
  | none =>
    rw [hnone] at h
    exact absurd h Sql.fail_ok
  | some record =>
    rw [hsome] at h
    exact congrArg (·.db) (Sql.pure_ok.mp h).2.symm

theorem updateMeta_ok {tags : Option (List Text)} {pinned : Option Bool} {validTo : Option Int}
    {status : Option Status}
    (h : updateMeta env id tags pinned validTo status now w = (.ok r, w')) :
    id ∈ w.db.memory ∧
      w'.db.memory = Keyed.updateAt id
        (metaRow pinned validTo status now (metaTouches pinned validTo status tags))
        w.db.memory ∧
      w'.db.fts = w.db.fts := by
  unfold updateMeta at h
  obtain ⟨loaded, w₀, hload, h⟩ := Sql.bind_ok.mp h
  obtain ⟨hdb₀, hloaded⟩ := loadRecord_ok hload
  cases loaded with
  | none => exact absurd h Sql.fail_ok
  | some record =>
    obtain ⟨row, hrow, -⟩ := Option.map_eq_some_iff.mp hloaded.symm
    refine ⟨Keyed.mem_of_lookup hrow, ?_⟩
    obtain ⟨u₁, w₁, hpinned, h⟩ := Sql.bind_ok.mp h
    obtain ⟨u₂, w₂, hvalidTo, h⟩ := Sql.bind_ok.mp h
    obtain ⟨u₃, w₃, hstatus, h⟩ := Sql.bind_ok.mp h
    obtain ⟨u₄, w₄, htags, h⟩ := Sql.bind_ok.mp h
    have hmem₄ : w₄.db.memory = Keyed.updateAt id
        (fun row => tags.elim row fun _ => stamp now (fun r => r) row) w₃.db.memory ∧
        w₄.db.fts = w₃.db.fts := by
      cases tags with
      | none =>
        obtain ⟨-, rfl⟩ := Sql.pure_ok.mp htags
        exact ⟨(Keyed.updateAt_self _ _).symm, rfl⟩
      | some t =>
        obtain ⟨u, w, hreplace, hstamp⟩ := Sql.bind_ok.mp htags
        obtain ⟨hmem, hfts⟩ := replaceTags_ok hreplace
        rw [Sql.execute_ok hstamp]
        exact ⟨congrArg (Keyed.updateAt id (stamp now fun r => r)) hmem, hfts⟩
    obtain ⟨w₅, hdb₅, hdb₆⟩ : ∃ w₅ : Work MemoryDb, w₅.db = w₄.db.updateMemory id (fun row =>
        if pinned = none ∧ validTo = none ∧ status = none ∧ tags = none then
          stamp now (fun r => r) row else row) ∧ w'.db = w₅.db := by
      by_cases hnone : pinned = none ∧ validTo = none ∧ status = none ∧ tags = none
      · rw [if_pos hnone] at h
        obtain ⟨u, w₅, hstamp, h⟩ := Sql.bind_ok.mp h
        simp only [if_pos hnone]
        exact ⟨w₅, Sql.execute_ok hstamp, reload_ok rfl (fun _ => rfl) h⟩
      · rw [if_neg hnone] at h
        simp only [if_neg hnone, MemoryDb.updateMemory, Keyed.updateAt_self]
        exact ⟨w₄, rfl, reload_ok rfl (fun _ => rfl) h⟩
    have hdb₃ := forSome_update_ok hstatus
    rw [forSome_update_ok hvalidTo, forSome_update_ok hpinned, hdb₀] at hdb₃
    refine ⟨?_, ?_⟩
    · rw [hdb₆, hdb₅]
      simp only [MemoryDb.updateMemory, hmem₄.1, hdb₃, Keyed.updateAt_updateAt]
      congr 1
      funext row
      cases pinned <;> cases validTo <;> cases status <;> cases tags <;>
        simp [metaRow, metaTouches, stamp] <;> omega
    · rw [hdb₆, hdb₅]
      simp only [MemoryDb.updateMemory, hmem₄.2, hdb₃]

theorem supersede_ok {old newId : Uuid} {new : MemoryDraft}
    (h : supersede env old new newId now w = (.ok r, w')) :
    old ∈ w.db.memory ∧ ∃ mid : MemoryDb,
      Created env new newId now (some old) w.db mid ∧
      w'.db = (mid.updateMemory old (supersededRow newId now)).ftsDelete old := by
  unfold supersede at h
  obtain ⟨loaded, w₁, hload, h⟩ := Sql.bind_ok.mp h
  obtain ⟨hdb₁, hloaded⟩ := loadRecord_ok hload
  cases loaded with
  | none => exact absurd h Sql.fail_ok
  | some record =>
    obtain ⟨row, hrow, -⟩ := Option.map_eq_some_iff.mp hloaded.symm
    obtain ⟨inserted, w₂, hinsert, h⟩ := Sql.bind_ok.mp h
    obtain ⟨u₃, w₃, hupdate, h⟩ := Sql.bind_ok.mp h
    obtain ⟨u₄, w₄, hfts, h⟩ := Sql.bind_ok.mp h
    obtain ⟨-, rfl⟩ := Sql.pure_ok.mp h
    have hcreated := insertRow_ok hinsert
    rw [hdb₁] at hcreated
    refine ⟨Keyed.mem_of_lookup hrow, w₂.db, hcreated, ?_⟩
    rw [Sql.execute_ok hfts, Sql.execute_ok hupdate]
    rfl

theorem retract_ok (h : retract id now w = (.ok r, w')) :
    id ∈ w.db.memory ∧
      w'.db = (w.db.updateMemory id (retractedRow now)).ftsDelete id := by
  unfold retract at h
  obtain ⟨n, w₁, hupdate, h⟩ := Sql.bind_ok.mp h
  have hdb₁ := Sql.statement_ok hupdate
  simp only [Option.some.injEq, Prod.mk.injEq] at hdb₁
  split at h
  · exact absurd h Sql.fail_ok
  · rename_i hn
    obtain ⟨u₂, w₂, hfts, h⟩ := Sql.bind_ok.mp h
    obtain ⟨loaded, w₃, hload, h⟩ := Sql.bind_ok.mp h
    have hw₃ : w' = w₃ := by
      cases loaded with
      | none => exact absurd h Sql.fail_ok
      | some record => exact (Sql.pure_ok.mp h).2.symm
    refine ⟨?_, ?_⟩
    · rw [← hdb₁.1] at hn
      simpa using hn
    · rw [hw₃, (loadRecord_ok hload).1, Sql.execute_ok hfts, ← hdb₁.2]
      rfl

/-- Each of the statements that the purge does not ignore, alone. -/
def purgedDb (id : Uuid) (tomb : PurgeTombstone) (db : MemoryDb) : MemoryDb :=
  ((db.putTombstone id tomb).ftsDelete id).deleteMemory id

theorem deleteMemory_deleteTags (id : Uuid) (db : MemoryDb) :
    (db.deleteTags id).deleteMemory id = db.deleteMemory id := by
  simp only [MemoryDb.deleteMemory, MemoryDb.deleteTags, MemoryDb.deleteEmbedding,
    List.filter_filter, Bool.and_self]

theorem deleteMemory_deleteEmbedding (id : Uuid) (db : MemoryDb) :
    (db.deleteEmbedding id).deleteMemory id = db.deleteMemory id := by
  have herase : (db.embeddings.erase id).erase id = db.embeddings.erase id := by
    apply AList.ext
    exact List.kerase_of_notMem_keys (AList.mem_keys.not.mp (by simp))
  simp only [MemoryDb.deleteMemory, MemoryDb.deleteTags, MemoryDb.deleteEmbedding, herase]

/-- The two deletes whose error is ignored make no difference to a purge that goes through. -/
theorem purgeBody_cases (id : Uuid) (tomb : PurgeTombstone) (w : Work MemoryDb) :
    (faultAt w.faults 0 = false ∧ faultAt w.faults 3 = false ∧ faultAt w.faults 4 = false ∧
      ∃ left, purgeBody id tomb w = (.ok tomb, ⟨purgedDb id tomb w.db, left⟩)) ∨
    ((faultAt w.faults 0 = true ∨ faultAt w.faults 3 = true ∨ faultAt w.faults 4 = true) ∧
      ∃ w', purgeBody id tomb w = (.error .sql, w') ∧ w'.db.memory = w.db.memory ∧
      w'.db.fts = if faultAt w.faults 0 || faultAt w.faults 3 then w.db.fts
        else w.db.fts.filter fun e => e.memoryId ≠ id) := by
  unfold purgeBody
  cases h₀ : faultAt w.faults 0 with
  | true =>
    exact Or.inr ⟨Or.inl rfl, _, Sql.bind_of_error (Sql.statement_fault h₀), rfl, rfl⟩
  | false =>
    rw [Sql.bind_of_ok (Sql.execute_pass h₀)]
    obtain ⟨db₁, htags, hdb₁⟩ := Sql.ignore_execute CoreError.sql (MemoryDb.deleteTags id)
      ⟨w.db.putTombstone id tomb, w.faults.tail⟩
    obtain ⟨db₂, hembeddings, hdb₂⟩ := Sql.ignore_execute CoreError.sql
      (MemoryDb.deleteEmbedding id) ⟨db₁, w.faults.tail.tail⟩
    rw [Sql.bind_of_ok htags, Sql.bind_of_ok hembeddings]
    have hkept : db₂.memory = w.db.memory ∧ db₂.fts = w.db.fts := by
      rcases hdb₂ with rfl | rfl <;> rcases hdb₁ with rfl | rfl <;> exact ⟨rfl, rfl⟩
    have htagsDropped : ∀ db : MemoryDb, ((db.deleteTags id).ftsDelete id).deleteMemory id =
        (db.ftsDelete id).deleteMemory id := fun db =>
      deleteMemory_deleteTags id (db.ftsDelete id)
    have hembeddingDropped : ∀ db : MemoryDb,
        ((db.deleteEmbedding id).ftsDelete id).deleteMemory id =
          (db.ftsDelete id).deleteMemory id := fun db =>
      deleteMemory_deleteEmbedding id (db.ftsDelete id)
    have hpurged : (db₂.ftsDelete id).deleteMemory id = purgedDb id tomb w.db := by
      rcases hdb₂ with rfl | rfl <;> rcases hdb₁ with rfl | rfl
      · rfl
      · exact htagsDropped _
      · exact hembeddingDropped _
      · exact (hembeddingDropped _).trans (htagsDropped _)
    have hfault₃ : faultAt w.faults.tail.tail.tail 0 = faultAt w.faults 3 := by
      simp only [faultAt_tail]
    have hfault₄ : faultAt w.faults.tail.tail.tail.tail 0 = faultAt w.faults 4 := by
      simp only [faultAt_tail]
    cases h₃ : faultAt w.faults 3 with
    | true =>
      exact Or.inr ⟨Or.inr (Or.inl rfl), _,
        Sql.bind_of_error (Sql.statement_fault (hfault₃.trans h₃)), hkept.1, hkept.2⟩
    | false =>
      rw [Sql.bind_of_ok (Sql.execute_pass (hfault₃.trans h₃))]
      cases h₄ : faultAt w.faults 4 with
      | true =>
        exact Or.inr ⟨Or.inr (Or.inr rfl), _,
          Sql.bind_of_error (Sql.statement_fault (hfault₄.trans h₄)), hkept.1,
          congrArg (List.filter fun e : FtsEntry => e.memoryId ≠ id) hkept.2⟩
      | false =>
        refine Or.inl ⟨rfl, rfl, rfl, w.faults.tail.tail.tail.tail.tail, ?_⟩
        rw [Sql.bind_of_ok (Sql.execute_pass (hfault₄.trans h₄)), hpurged]
        rfl

/-! ## Calls -/

theorem loadRecord_eq (id : Uuid) (db : MemoryDb) (faults : List Bool) :
    loadRecord id ⟨db, faults⟩ =
      if faultAt faults 0 then (.error .sql, ⟨db, faults.tail⟩)
      else
        match db.memory.lookup id with
        | none => (.ok none, ⟨db, faults.tail⟩)
        | some row =>
          if faultAt faults 1 then (.error .sql, ⟨db, faults.tail.tail⟩)
          else (.ok (some ⟨id, row, MemoryDb.tagsOf id db⟩), ⟨db, faults.tail.tail⟩) := by
  unfold loadRecord
  cases h₀ : faultAt faults 0 with
  | true =>
    rw [Sql.query, Sql.bind_of_error (Sql.statement_fault h₀), if_pos rfl]
  | false =>
    rw [Sql.bind_of_ok (Sql.query_pass h₀), if_neg Bool.false_ne_true]
    cases hrow : db.memory.lookup id with
    | none => rfl
    | some row =>
      simp only
      have htail := faultAt_tail faults 0
      cases h₁ : faultAt faults 1 with
      | true =>
        rw [Sql.query, Sql.bind_of_error (Sql.statement_fault (htail.trans h₁)), if_pos rfl]
      | false =>
        rw [Sql.bind_of_ok (Sql.query_pass (htail.trans h₁)), if_neg Bool.false_ne_true]
        rfl

/-- A purge does nothing, goes through up to its commit, or stops with its transaction open. -/
theorem purgeGdpr_cases (env : Env) (conn : Connection MemoryDb) (faults : List Bool)
    (commitFails : Bool) (id : Uuid) (now : Int) (reason : Text) :
    ((conn.begun ≠ none ∨ id ∉ conn.db.memory ∨ faultAt faults 0 = true ∨
        faultAt faults 1 = true ∨ faultAt faults 2 = true) ∧
      ∃ e, purgeGdpr env conn faults commitFails id now reason = (.error e, conn)) ∨
    ∃ row, conn.begun = none ∧ conn.db.memory.lookup id = some row ∧
      faultAt faults 0 = false ∧ faultAt faults 1 = false ∧ faultAt faults 2 = false ∧
      ((faultAt faults 3 = false ∧ faultAt faults 6 = false ∧ faultAt faults 7 = false ∧
        purgeGdpr env conn faults commitFails id now reason =
          if commitFails then
            (.error .sql, ⟨purgedDb id (tombstoneOf env row now reason) conn.db, some conn.db⟩)
          else
            (.ok (tombstoneOf env row now reason),
              ⟨purgedDb id (tombstoneOf env row now reason) conn.db, none⟩)) ∨
      ((faultAt faults 3 = true ∨ faultAt faults 6 = true ∨ faultAt faults 7 = true) ∧ ∃ db',
        purgeGdpr env conn faults commitFails id now reason =
          (.error .sql, ⟨db', some conn.db⟩) ∧ db'.memory = conn.db.memory ∧
        db'.fts = if faultAt faults 3 || faultAt faults 6 then conn.db.fts
          else conn.db.fts.filter fun e => e.memoryId ≠ id)) := by
  unfold purgeGdpr
  rw [loadRecord_eq]
  cases h₀ : faultAt faults 0 with
  | true => exact Or.inl ⟨Or.inr (Or.inr (Or.inl rfl)), _, rfl⟩
  | false =>
    rw [if_neg Bool.false_ne_true]
    cases hrow : conn.db.memory.lookup id with
    | none =>
      have hmissing : id ∉ conn.db.memory := AList.lookup_eq_none.mp hrow
      exact Or.inl ⟨Or.inr (Or.inl hmissing), _, rfl⟩
    | some row =>
      simp only
      cases h₁ : faultAt faults 1 with
      | true => exact Or.inl ⟨Or.inr (Or.inr (Or.inr (Or.inl rfl))), _, rfl⟩
      | false =>
        simp only [Bool.false_eq_true, if_false]
        unfold transact
        rw [headD_eq_faultAt, faultAt_tail, faultAt_tail]
        cases h₂ : faultAt faults 2 with
        | true => exact Or.inl ⟨Or.inr (Or.inr (Or.inr (Or.inr rfl))), _, rfl⟩
        | false =>
          cases hbegun : conn.begun with
          | some db => exact Or.inl ⟨Or.inl (Option.some_ne_none db), _, rfl⟩
          | none =>
            refine Or.inr ⟨row, rfl, rfl, trivial, trivial, rfl, ?_⟩
            simp only [Bool.false_or, Option.isSome_none, Bool.false_eq_true, if_false]
            have hcases := purgeBody_cases id (tombstoneOf env row now reason)
              ⟨conn.db, faults.tail.tail.tail⟩
            simp only [faultAt_tail] at hcases
            rcases hcases with ⟨h₃, h₆, h₇, left, hbody⟩ | ⟨hfault, w', hbody, hmem, hfts⟩
            · refine Or.inl ⟨h₃, h₆, h₇, ?_⟩
              rw [hbody]
              cases commitFails <;> rfl
            · refine Or.inr ⟨hfault, w'.db, ?_, hmem, hfts⟩
              rw [hbody]

/-- What a call can make of the records and of the full-text entries. -/
inductive Effect (env : Env) (db db' : MemoryDb) : Request → Prop
  | insert {draft : MemoryDraft} {id : Uuid} {now : Int}
      (hnew : Created env draft id now none db db') :
    Effect env db db' (.put (.insert draft) id now)
  | imported {draft : MemoryDraft} {id : Uuid} {now : Int}
      (hnew : Created env draft id now none db db') :
    Effect env db db' (.putImported id draft now)
  | updateMeta {id newId : Uuid} {tags : Option (List Text)} {pinned : Option Bool}
      {validTo : Option Int} {status : Option Status} {now : Int} (hold : id ∈ db.memory)
      (hmem : db'.memory = Keyed.updateAt id
        (metaRow pinned validTo status now (metaTouches pinned validTo status tags)) db.memory)
      (hfts : db'.fts = db.fts) :
    Effect env db db' (.put (.updateMeta id tags pinned validTo status) newId now)
  | supersede {old newId : Uuid} {new : MemoryDraft} {now : Int} (mid : MemoryDb)
      (hold : old ∈ db.memory) (hnew : Created env new newId now (some old) db mid)
      (hmem : db'.memory = Keyed.updateAt old (supersededRow newId now) mid.memory)
      (hfts : db'.fts = mid.fts.filter fun e => e.memoryId ≠ old) :
    Effect env db db' (.put (.supersede old new) newId now)
  | retract {id newId : Uuid} {now : Int} (hold : id ∈ db.memory)
      (hmem : db'.memory = Keyed.updateAt id (retractedRow now) db.memory)
      (hfts : db'.fts = db.fts.filter fun e => e.memoryId ≠ id) :
    Effect env db db' (.put (.retract id) newId now)
  | purge {id : Uuid} {now : Int} {reason : Text} (hold : id ∈ db.memory)
      (hmem : db'.memory = Keyed.updateAll (fun _ => MemoryDb.unlink id) (db.memory.erase id))
      (hfts : db'.fts = db.fts.filter fun e => e.memoryId ≠ id) :
    Effect env db db' (.purgeGdpr id now reason)

theorem putBody_ok {op : MemoryWriteOp} {newId : Uuid}
    (h : putBody env op newId now w = (.ok r, w')) : Effect env w.db w'.db (.put op newId now) := by
  cases op with
  | insert draft => exact .insert (insertRow_ok h)
  | updateMeta id tags pinned validTo status =>
    obtain ⟨hold, hmem, hfts⟩ := updateMeta_ok h
    exact .updateMeta hold hmem hfts
  | supersede old new =>
    obtain ⟨hold, mid, hnew, hdb⟩ := supersede_ok h
    refine .supersede mid hold hnew ?_ ?_ <;> rw [hdb] <;> rfl
  | retract id =>
    obtain ⟨hold, hdb⟩ := retract_ok h
    refine .retract hold ?_ ?_ <;> rw [hdb] <;> rfl

theorem Effect.congr {db db' db'' : MemoryDb} {request : Request}
    (h : Effect env db db' request) (hmem : db''.memory = db'.memory)
    (hfts : db''.fts = db'.fts) : Effect env db db'' request := by
  have hcreated : ∀ {draft : MemoryDraft} {id : Uuid} {now : Int} {supersedes : Option Uuid},
      Created env draft id now supersedes db db' → Created env draft id now supersedes db db'' := by
    rintro draft id now supersedes ⟨hnew, content, title, hmem', hfts'⟩
    exact ⟨hnew, content, title, hmem.trans hmem', hfts.trans hfts'⟩
  cases h with
  | insert hnew => exact .insert (hcreated hnew)
  | imported hnew => exact .imported (hcreated hnew)
  | updateMeta hold h₁ h₂ => exact .updateMeta hold (hmem.trans h₁) (hfts.trans h₂)
  | supersede mid hold hnew h₁ h₂ =>
    exact .supersede mid hold hnew (hmem.trans h₁) (hfts.trans h₂)
  | retract hold h₁ h₂ => exact .retract hold (hmem.trans h₁) (hfts.trans h₂)
  | purge hold h₁ h₂ => exact .purge hold (hmem.trans h₁) (hfts.trans h₂)

theorem maybeEmbedContent_keeps (env : Env) (conn : Connection MemoryDb) (faults : List Bool)
    (id : Uuid) (content : Text) :
    (maybeEmbedContent env conn faults id content).db.memory = conn.db.memory ∧
      (maybeEmbedContent env conn faults id content).db.fts = conn.db.fts := by
  unfold maybeEmbedContent
  cases env.embed with
  | none => exact ⟨rfl, rfl⟩
  | some backend =>
    simp only
    split
    · exact ⟨rfl, rfl⟩
    · cases backend.2 (env.redactCandidate content).text.toList with
      | none => exact ⟨rfl, rfl⟩
      | some vector =>
        simp only
        generalize hput : (Sql.statement CoreError.sql
          (MemoryDb.putEmbedding id ⟨backend.1, vector⟩)) ⟨conn.db, faults⟩ = done
        obtain ⟨r, w⟩ := done
        cases r with
        | error e =>
          rw [Sql.statement_error hput]
          exact ⟨rfl, rfl⟩
        | ok u =>
          have hdb := Sql.statement_ok hput
          unfold MemoryDb.putEmbedding at hdb
          split at hdb
          · cases hdb
          · simp only [Option.some.injEq, Prod.mk.injEq] at hdb
            rw [← hdb.2]
            exact ⟨rfl, rfl⟩

theorem put_cases (env : Env) (conn : Connection MemoryDb) (faults : List Bool)
    (commitFails : Bool) (op : MemoryWriteOp) (newId : Uuid) (now : Int) :
    (∃ e, put env conn faults commitFails op newId now = (.error e, conn)) ∨
    ∃ r conn', put env conn faults commitFails op newId now = (r, conn') ∧
      r.toBool = !commitFails ∧ conn.begun = none ∧
      Effect env conn.db conn'.db (.put op newId now) := by
  unfold put
  rcases transact_cases CoreError.sql true commitFails conn faults (putBody env op newId now) with
    ⟨e, left, h⟩ | ⟨hbegun, r, w, hbody, h⟩ | ⟨hfalse, -⟩
  · exact Or.inl ⟨e, by rw [h]⟩
  · have heffect := putBody_ok hbody
    cases commitFails with
    | true => exact Or.inr ⟨_, _, by rw [h, if_pos rfl], rfl, hbegun, heffect⟩
    | false =>
      refine Or.inr ⟨_, _, by rw [h, if_neg Bool.false_ne_true], rfl, hbegun, ?_⟩
      split
      · obtain ⟨hmem, hfts⟩ := maybeEmbedContent_keeps env ⟨w.db, none⟩ w.faults r.id r.row.content
        exact heffect.congr hmem hfts
      · exact heffect
  · cases hfalse

/-- As `put_cases`, and a record that is there is left as it is. -/
theorem putImported_cases (env : Env) (conn : Connection MemoryDb) (faults : List Bool)
    (commitFails : Bool) (id : Uuid) (draft : MemoryDraft) (now : Int) :
    (∃ e, putImported env conn faults commitFails id draft now = (.error e, conn)) ∨
    (∃ r, putImported env conn faults commitFails id draft now = (.ok r, conn) ∧
      id ∈ conn.db.memory) ∨
    ∃ r conn', putImported env conn faults commitFails id draft now = (r, conn') ∧
      r.toBool = !commitFails ∧ conn.begun = none ∧
      Effect env conn.db conn'.db (.putImported id draft now) := by
  unfold putImported
  rw [loadRecord_eq]
  cases faultAt faults 0 with
  | true => exact Or.inl ⟨_, rfl⟩
  | false =>
    rw [if_neg Bool.false_ne_true]
    cases hrow : conn.db.memory.lookup id with
    | some row =>
      simp only
      cases faultAt faults 1 with
      | true => exact Or.inl ⟨_, rfl⟩
      | false => exact Or.inr (Or.inl ⟨_, rfl, Keyed.mem_of_lookup hrow⟩)
    | none =>
      simp only
      rcases transact_cases CoreError.sql true commitFails conn faults.tail
          (insertRow env draft id now none 1) with
        ⟨e, left, h⟩ | ⟨hbegun, r, w, hbody, h⟩ | ⟨hfalse, -⟩
      · exact Or.inl ⟨e, by rw [h]⟩
      · have heffect : Effect env conn.db w.db (.putImported id draft now) :=
          .imported (insertRow_ok hbody)
        cases commitFails with
        | true => exact Or.inr (Or.inr ⟨_, _, by rw [h, if_pos rfl], rfl, hbegun, heffect⟩)
        | false =>
          refine Or.inr (Or.inr
            ⟨_, _, by rw [h, if_neg Bool.false_ne_true], rfl, hbegun, ?_⟩)
          obtain ⟨hmem, hfts⟩ :=
            maybeEmbedContent_keeps env ⟨w.db, none⟩ w.faults r.id r.row.content
          exact heffect.congr hmem hfts
      · cases hfalse

/-- A purge that takes a record's full-text entry and then leaves its row. -/
def dropsEntryOnly (faults : List Bool) : Bool :=
  faultAt faults 7 && !(faultAt faults 0 || faultAt faults 1 || faultAt faults 2 ||
    faultAt faults 3 || faultAt faults 6)

/-- All that a call can do to the records and to the full-text entries. -/
theorem serve_cases (env : Env) (conn : Connection MemoryDb) (call : Call) :
    ((serve env conn call).2.db.memory = conn.db.memory ∧
      (serve env conn call).2.db.fts = conn.db.fts) ∨
    Effect env conn.db (serve env conn call).2.db call.request ∨
    ∃ id now reason, call.request = .purgeGdpr id now reason ∧ id ∈ conn.db.memory ∧
      dropsEntryOnly call.faults = true ∧
      (serve env conn call).2.db.memory = conn.db.memory ∧
      (serve env conn call).2.db.fts = conn.db.fts.filter fun e => e.memoryId ≠ id := by
  obtain ⟨request, faults, commitFails⟩ := call
  cases request with
  | put op newId now =>
    unfold serve
    rcases put_cases env conn faults commitFails op newId now with
      ⟨e, h⟩ | ⟨r, conn', h, -, -, heffect⟩
    · simp only [h]
      exact Or.inl ⟨trivial, trivial⟩
    · simp only [h]
      exact Or.inr (Or.inl heffect)
  | putImported id draft now =>
    unfold serve
    rcases putImported_cases env conn faults commitFails id draft now with
      ⟨e, h⟩ | ⟨r, h, -⟩ | ⟨r, conn', h, -, -, heffect⟩
    · simp only [h]
      exact Or.inl ⟨trivial, trivial⟩
    · simp only [h]
      exact Or.inl ⟨trivial, trivial⟩
    · simp only [h]
      exact Or.inr (Or.inl heffect)
  | purgeGdpr id now reason =>
    unfold serve
    rcases purgeGdpr_cases env conn faults commitFails id now reason with
      ⟨-, e, h⟩ | ⟨row, -, hrow, h₀, h₁, h₂, ⟨-, -, -, h⟩ | ⟨hfault, db', h, hmem, hfts⟩⟩
    · simp only [h]
      exact Or.inl ⟨trivial, trivial⟩
    · refine Or.inr (Or.inl ?_)
      have hdb : (purgeGdpr env conn faults commitFails id now reason).2.db =
          purgedDb id (tombstoneOf env row now reason) conn.db := by
        rw [h]
        cases commitFails <;> rfl
      refine .purge (Keyed.mem_of_lookup hrow) ?_ ?_ <;> simp only [hdb] <;> rfl
    · simp only [h]
      cases hkept : faultAt faults 3 || faultAt faults 6 with
      | true =>
        rw [hkept, if_pos rfl] at hfts
        exact Or.inl ⟨hmem, hfts⟩
      | false =>
        rw [hkept, if_neg Bool.false_ne_true] at hfts
        refine Or.inr (Or.inr ⟨id, now, reason, rfl, Keyed.mem_of_lookup hrow, ?_, hmem, hfts⟩)
        rw [Bool.or_eq_false_iff] at hkept
        unfold dropsEntryOnly
        simp only [h₀, h₁, h₂, hkept.1, hkept.2, Bool.false_eq_true, false_or] at hfault ⊢
        rw [hfault]
        rfl

/-! ## Small runs -/

/-- Texts without anything to redact, their digests, and no embedding backend. -/
def plainEnv : Env where
  redactCandidate text := ⟨String.ofList text, false, [], false, none⟩
  contentHashFor text :=
    if text = "tea at four".toList then "9760383deca60b5f:11".toList
    else "71ac17ede288b71d:16".toList
  embed := none

def plantsNote : MemoryDraft where
  kind := .fact
  content := "water the plants".toList

def teaNote : MemoryDraft where
  kind := .decision
  content := "tea at four".toList

def addCall (draft : MemoryDraft) (id : Uuid) (now : Int) : Call :=
  ⟨.put (.insert draft) id now, [], false⟩

def statusCall (id : Uuid) (status : Status) (now : Int) : Call :=
  ⟨.put (.updateMeta id none none none (some status)) 0 now, [], false⟩

def supersedeCall (old : Uuid) (draft : MemoryDraft) (id : Uuid) (now : Int) : Call :=
  ⟨.put (.supersede old draft) id now, [], false⟩

def retractCall (id : Uuid) (now : Int) : Call := ⟨.put (.retract id) 0 now, [], false⟩

def purgeCall (id : Uuid) (now : Int) (faults : List Bool) : Call :=
  ⟨.purgeGdpr id now "erasure".toList, faults, false⟩

end ContextDesk.Memory
