import ContextDesk.MemoryStoreSpec

/-!
# Purges under failing statements

`purge_gdpr` opens its transaction by hand and leaves through `?`, past no `ROLLBACK`: a statement
that fails after `BEGIN` strands the transaction, and every later call on the connection fails at
its own `BEGIN` (`stranded_put`). Two of the deletes ignore their error, which makes no difference:
the row's deletion takes the tags and the embedding along. A second purge of an id keeps the kind,
the scope and the hash of its first tombstone. `purge_settled_iff` is what remains.
-/

namespace ContextDesk.Memory

open Lib

/-- Nothing of a record is left but its tombstone. -/
structure Vanished (id : Uuid) (db : MemoryDb) : Prop where
  memory : id ∉ db.memory
  fts : ∀ e ∈ db.fts, e.memoryId ≠ id
  tags : ∀ t ∈ db.tags, t.1 ≠ id
  embeddings : id ∉ db.embeddings

/-- A tombstone with the kind, the scope and the hash of a row. -/
def PurgeTombstone.Records (t : PurgeTombstone) (row : MemoryRow) : Prop :=
  t.kind = (Kind.parse row.kind).asStr ∧ t.scope = row.scope.asStr ∧
    t.contentHash = row.contentHash

/-- A purge that is done, or that left everything as it was and no transaction open. -/
def PurgeSettled (id : Uuid) (before : MemoryDb)
    (out : Except CoreError PurgeTombstone × Connection MemoryDb) : Prop :=
  match out with
  | (.ok _, conn) => Vanished id conn.db ∧ ∃ row t, before.memory.lookup id = some row ∧
      conn.db.tombstones.lookup id = some t ∧ t.Records row
  | (.error _, conn) => conn.db = before ∧ conn.begun = none

variable {id : Uuid}

theorem PurgeSettled.closed {before : MemoryDb}
    {out : Except CoreError PurgeTombstone × Connection MemoryDb} (h : PurgeSettled id before out)
    (hfailed : out.1.toBool = false) : out.2.begun.isNone = true := by
  obtain ⟨_ | _, conn⟩ := out
  · rw [h.2]
    rfl
  · cases hfailed

theorem PurgeSettled.same_hash {before : MemoryDb}
    {out : Except CoreError PurgeTombstone × Connection MemoryDb} (h : PurgeSettled id before out)
    (hok : out.1.toBool = true) :
    (out.2.db.tombstones.lookup id).map (·.contentHash) =
      (before.memory.lookup id).map (·.contentHash) := by
  obtain ⟨_ | _, conn⟩ := out
  · cases hok
  · obtain ⟨-, row, t, hrow, ht, -, -, hhash⟩ := h
    rw [hrow, ht, Option.map_some, Option.map_some, hhash]

/-- A purge that is refused up to its `BEGIN`. -/
def refusedEarly (faults : List Bool) (id : Uuid) (db : MemoryDb) : Prop :=
  id ∉ db.memory ∨ faultAt faults 0 = true ∨ faultAt faults 1 = true ∨ faultAt faults 2 = true

/-- No statement that counts is refused, and an earlier tombstone of the id agrees. -/
def goesThrough (faults : List Bool) (commitFails : Bool) (id : Uuid) (db : MemoryDb) : Prop :=
  faultAt faults 3 = false ∧ faultAt faults 6 = false ∧ faultAt faults 7 = false ∧
    commitFails = false ∧
    ∀ row t, db.memory.lookup id = some row → db.tombstones.lookup id = some t → t.Records row

theorem vanished_purgedDb (id : Uuid) (tomb : PurgeTombstone) (db : MemoryDb) :
    Vanished id (purgedDb id tomb db) where
  memory := by
    rw [← AList.lookup_eq_none]
    exact (Keyed.lookup_updateAll _ _ id).trans (by rw [Keyed.lookup_erase, if_pos rfl]; rfl)
  fts e he := by
    have := (List.mem_filter.mp he).2
    simpa using this
  tags t ht := by
    have := (List.mem_filter.mp ht).2
    simpa using this
  embeddings := by
    rw [← AList.lookup_eq_none]
    exact AList.lookup_erase _ _

theorem lookup_tombstones_purgedDb (id : Uuid) (tomb : PurgeTombstone) (db : MemoryDb) :
    (purgedDb id tomb db).tombstones.lookup id =
      some (match db.tombstones.lookup id with
        | none => tomb
        | some old => { old with purgedAt := tomb.purgedAt, reason := tomb.reason }) :=
  AList.lookup_insert _

theorem tombstoneOf_records (env : Env) (row : MemoryRow) (now : Int) (reason : Text) :
    (tombstoneOf env row now reason).Records row := ⟨rfl, rfl, rfl⟩

/-- The tombstone that a purge leaves records the row unless an earlier one does not. -/
theorem tombstone_records_iff (env : Env) {db : MemoryDb} {row : MemoryRow}
    (hrow : db.memory.lookup id = some row) (now : Int) (reason : Text) :
    (∃ row' t, db.memory.lookup id = some row' ∧
      (purgedDb id (tombstoneOf env row now reason) db).tombstones.lookup id = some t ∧
      t.Records row') ↔
    ∀ row' t, db.memory.lookup id = some row' → db.tombstones.lookup id = some t →
      t.Records row' := by
  rw [lookup_tombstones_purgedDb]
  cases hold : db.tombstones.lookup id with
  | none =>
    constructor
    · intro _ row' t _ ht
      cases ht
    · exact fun _ => ⟨row, _, hrow, rfl, tombstoneOf_records env row now reason⟩
  | some old =>
    constructor
    · rintro ⟨row₁, t₁, hrow₁, ht₁, hrecords⟩ row₂ t₂ hrow₂ ht₂
      cases ht₁
      cases ht₂
      rw [hrow₁, Option.some.injEq] at hrow₂
      exact hrow₂ ▸ hrecords
    · exact fun h => ⟨row, _, hrow, rfl, h row old hrow rfl⟩

/-- A purge of any state, under any refused statements, is settled exactly when no transaction was
left open before it and it is refused before its own, or goes through. -/
theorem purge_settled_iff (env : Env) (conn : Connection MemoryDb) (faults : List Bool)
    (commitFails : Bool) (id : Uuid) (now : Int) (reason : Text) :
    PurgeSettled id conn.db (purgeGdpr env conn faults commitFails id now reason) ↔
      conn.begun = none ∧
        (refusedEarly faults id conn.db ∨ goesThrough faults commitFails id conn.db) := by
  rcases purgeGdpr_cases env conn faults commitFails id now reason with
    ⟨hrefused, e, h⟩ | ⟨row, hbegun, hrow, h₀, h₁, h₂, hcases⟩
  · rw [h]
    constructor
    · rintro ⟨-, hbegun⟩
      exact ⟨hbegun, Or.inl (hrefused.resolve_left fun hne => hne hbegun)⟩
    · exact fun h => ⟨rfl, h.1⟩
  · have hearly : ¬ refusedEarly faults id conn.db := by
      unfold refusedEarly
      rw [h₀, h₁, h₂]
      simp [Keyed.mem_of_lookup hrow]
    rcases hcases with ⟨h₃, h₆, h₇, h⟩ | ⟨hfault, db', h, -, -⟩
    · rw [h]
      cases commitFails with
      | true =>
        constructor
        · rintro ⟨-, hnone⟩
          cases hnone
        · rintro ⟨-, hearly' | hthrough⟩
          · exact absurd hearly' hearly
          · cases hthrough.2.2.2.1
      | false =>
        rw [if_neg Bool.false_ne_true]
        have hrecords := tombstone_records_iff env hrow now reason
        constructor
        · rintro ⟨-, hrecorded⟩
          exact ⟨hbegun, Or.inr ⟨h₃, h₆, h₇, rfl, hrecords.mp hrecorded⟩⟩
        · rintro ⟨-, hearly' | hthrough⟩
          · exact absurd hearly' hearly
          · exact ⟨vanished_purgedDb id _ conn.db, hrecords.mpr hthrough.2.2.2.2⟩
    · rw [h]
      constructor
      · rintro ⟨-, hnone⟩
        cases hnone
      · rintro ⟨-, hearly' | ⟨h₃, h₆, h₇, -⟩⟩
        · exact absurd hearly' hearly
        · rw [h₃, h₆, h₇] at hfault
          simp at hfault

theorem stranded_put (env : Env) {conn : Connection MemoryDb} (h : conn.begun ≠ none)
    (faults : List Bool) (commitFails : Bool) (op : MemoryWriteOp) (newId : Uuid) (now : Int) :
    ∃ e, put env conn faults commitFails op newId now = (.error e, conn) := by
  rcases put_cases env conn faults commitFails op newId now with herror | ⟨_, _, -, -, hbegun, -⟩
  · exact herror
  · exact absurd hbegun h

/-- The deletion of the row fails: the error leaves the entry gone, the tombstone made and the
transaction open. And an id that is imported again and purged again keeps its first tombstone. -/
theorem purge_strands_transaction :
    ¬ PurgeSettled 1 (serveAll plainEnv openStore [addCall plantsNote 1 10]).db
      (purgeGdpr plainEnv (serveAll plainEnv openStore [addCall plantsNote 1 10])
        (List.replicate 7 false ++ [true]) false 1 20 "erasure".toList) ∧
    ¬ PurgeSettled 1
      (serveAll plainEnv openStore [addCall plantsNote 1 10, purgeCall 1 20 [],
        ⟨.putImported 1 teaNote 30, [], false⟩]).db
      (purgeGdpr plainEnv
        (serveAll plainEnv openStore [addCall plantsNote 1 10, purgeCall 1 20 [],
          ⟨.putImported 1 teaNote 30, [], false⟩])
        [] false 1 40 "erasure".toList) := by
  refine ⟨fun h => ?_, fun h => ?_⟩
  · exact absurd (h.closed (by decide +kernel)) (by decide +kernel)
  · exact absurd (h.same_hash (by decide +kernel)) (by decide +kernel)

end ContextDesk.Memory
