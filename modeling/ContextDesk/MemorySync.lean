import ContextDesk.Lib.Feed
import ContextDesk.Lib.Runs
import ContextDesk.MemoryStoreSpec

/-!
# Reading the changes

`changes_since` answers at most 1000 records past a cursor of whole seconds, oldest first. A reader
that moves its cursor to the newest time it got loses what it did not get of that second: the rest
of a batch that was cut there, and what is written there later (`same_second_write_lost`).
`changes_received` is the exact condition for a store that is read through, and for writes between
the polls that a run whose polls cut no second, and whose writes come after the reader's cursor,
keeps everything received or still ahead. The order in which the rows of one second come is open.
-/

namespace ContextDesk.Memory

open Lib List

variable {env : Env} {scan : MemoryDb → Int → List (Uuid × MemoryRow)}

def rowTime (e : Uuid × MemoryRow) : Int := e.2.updatedAt

def recordTime (r : MemoryRecord) : Int := r.row.updatedAt

/-- `changes_since`, for the order in which a query reads the rows. -/
def changesSince (scan : MemoryDb → Int → List (Uuid × MemoryRow)) (db : MemoryDb) (cursor : Int) :
    List MemoryRecord :=
  (Feed.poll rowTime 1000 (scan db cursor) cursor).filterMap fun e => recordOf db e.1

/-- A reader that polls until it gets nothing. -/
def consume (scan : MemoryDb → Int → List (Uuid × MemoryRow)) (db : MemoryDb) :
    Nat → Int → Option (List MemoryRecord)
  | 0, _ => none
  | fuel + 1, cursor =>
    let batch := changesSince scan db cursor
    if batch.isEmpty then some []
    else (consume scan db fuel (Feed.newest recordTime cursor batch)).map (batch ++ ·)

structure Sync where
  conn : Connection MemoryDb
  cursor : Int
  received : List MemoryRecord

inductive SyncStep where
  | call (call : Call)
  | poll

def SyncStep.apply (env : Env) (scan : MemoryDb → Int → List (Uuid × MemoryRow)) (s : Sync) :
    SyncStep → Sync
  | .call request => { s with conn := (serve env s.conn request).2 }
  | .poll =>
    let batch := changesSince scan s.conn.db s.cursor
    { s with
      cursor := Feed.newest recordTime s.cursor batch
      received := s.received ++ batch }

/-- The time that a write stamps on what it writes. -/
def writeTime : Request → Option Int
  | .put _ _ now => some now
  | .putImported _ _ now => some now
  | .purgeGdpr _ _ _ => none

/-- A write after the reader's cursor, or a poll that cuts no second. -/
def KeepsUp (s : Sync) : SyncStep → Prop
  | .call call => ∀ now, writeTime call.request = some now → s.cursor < now
  | .poll => ∀ t, ¬ Feed.Cut rowTime 1000 (Keyed.rows s.conn.db.memory) s.cursor 1 t

/-- Two states of a row with no write between them: a purge clears links. -/
def SameButLinks (before after : MemoryRow) : Prop :=
  after = { before with supersedes := after.supersedes, supersededBy := after.supersededBy }

def Reflects (r : MemoryRecord) (id : Uuid) (row : MemoryRow) : Prop :=
  r.id = id ∧ SameButLinks r.row row

theorem SameButLinks.trans {a b c : MemoryRow} (h : SameButLinks a b) (h' : SameButLinks b c) :
    SameButLinks a c := by
  unfold SameButLinks at *
  rw [h', h]

theorem SameButLinks.updatedAt {a b : MemoryRow} (h : SameButLinks a b) :
    b.updatedAt = a.updatedAt := by
  rw [h]

/-! ## Polls -/

theorem nodup_rows (memory : Keyed Uuid MemoryRow) : (Keyed.rows memory).Nodup := by
  have hkeys : ((Keyed.rows memory).map Prod.fst).Nodup := by
    unfold Keyed.rows
    rw [map_map]
    exact memory.nodupKeys
  exact hkeys.of_map _

def recordFor (db : MemoryDb) (e : Uuid × MemoryRow) : MemoryRecord :=
  ⟨e.1, e.2, MemoryDb.tagsOf e.1 db⟩

theorem changesSince_eq (hscan : ∀ db c, (scan db c).Perm (Keyed.rows db.memory)) (db : MemoryDb)
    (cursor : Int) :
    changesSince scan db cursor =
      (Feed.poll rowTime 1000 (scan db cursor) cursor).map (recordFor db) := by
  unfold changesSince
  rw [← filterMap_eq_map]
  apply filterMap_congr
  intro e he
  have hrow : db.memory.lookup e.1 = some e.2 := by
    rw [← Keyed.mem_rows, ← (hscan db cursor).mem_iff]
    have hsorted := mem_of_mem_take he
    rw [(perm_insertionSort _ _).mem_iff] at hsorted
    exact (Feed.mem_ahead.mp hsorted).1
  rw [recordOf, hrow]
  rfl

theorem newest_map (db : MemoryDb) (cursor : Int) (batch : List (Uuid × MemoryRow)) :
    Feed.newest recordTime cursor (batch.map (recordFor db)) =
      Feed.newest rowTime cursor batch := by
  unfold Feed.newest
  rw [foldl_map]
  rfl

theorem consume_eq (hscan : ∀ db c, (scan db c).Perm (Keyed.rows db.memory)) (db : MemoryDb)
    (fuel : Nat) (cursor : Int) :
    consume scan db fuel cursor =
      (Feed.drain rowTime 1000 (scan db) fuel cursor).map (List.map (recordFor db)) := by
  induction fuel generalizing cursor with
  | zero => rfl
  | succ fuel ih =>
    unfold consume Feed.drain
    simp only [changesSince_eq hscan, newest_map, ih, isEmpty_map]
    cases (Feed.poll rowTime 1000 (scan db cursor) cursor).isEmpty with
    | true => rfl
    | false =>
      simp only [Bool.false_eq_true, if_false, Option.map_map]
      congr 1
      funext out
      simp

/-- A reader of a store at rest gets all that is past its cursor, each row as it is, exactly when
its batches cut no second. -/
theorem consume_exact (hscan : ∀ db c, (scan db c).Perm (Keyed.rows db.memory)) (db : MemoryDb)
    {fuel : Nat} (hfuel : (Keyed.rows db.memory).length < fuel) (cursor : Int) :
    ∃ rest, consume scan db fuel cursor = some rest ∧
      ((∀ id row, db.memory.lookup id = some row → cursor < row.updatedAt →
          recordFor db (id, row) ∈ rest) ↔
        Feed.Uncut rowTime 1000 (Keyed.rows db.memory) cursor) := by
  obtain ⟨out, hout, -, hiff⟩ := Feed.drain_exact (by decide : 0 < 1000) (nodup_rows db.memory)
    (hscan db) (Nat.lt_of_le_of_lt (length_filter_le _ _) hfuel)
  refine ⟨out.map (recordFor db), by rw [consume_eq hscan, hout]; rfl, ?_⟩
  rw [← hiff]
  constructor
  · rintro h ⟨id, row⟩ he hcursor
    obtain ⟨e, he', heq⟩ := mem_map.mp (h id row (Keyed.mem_rows.mp he) hcursor)
    cases e
    cases heq
    exact he'
  · intro h id row hrow hcursor
    exact mem_map.mpr ⟨(id, row), h _ (Keyed.mem_rows.mpr hrow) hcursor, rfl⟩

/-! ## Writes between polls -/

theorem SameButLinks.refl (row : MemoryRow) : SameButLinks row row := rfl

variable {db db' : MemoryDb} {id : Uuid} {row' : MemoryRow}

theorem lookup_stamped {target : Uuid} {set : MemoryRow → MemoryRow} (now : Int)
    (hset : ∀ row, (set row).updatedAt = now)
    (hmem : db'.memory = Keyed.updateAt target set db.memory)
    (hrow' : db'.memory.lookup id = some row') :
    (∃ row, db.memory.lookup id = some row ∧ SameButLinks row row') ∨ row'.updatedAt = now := by
  rw [hmem, Keyed.lookup_updateAt] at hrow'
  by_cases hid : id = target
  · rw [if_pos hid, Option.map_eq_some_iff] at hrow'
    obtain ⟨row, -, rfl⟩ := hrow'
    exact Or.inr (hset row)
  · rw [if_neg hid] at hrow'
    exact Or.inl ⟨row', hrow', .refl row'⟩

theorem Created.kept_or_new {draft : MemoryDraft} {newId : Uuid} {now : Int}
    {supersedes : Option Uuid} (h : Created env draft newId now supersedes db db')
    (hrow' : db'.memory.lookup id = some row') :
    (∃ row, db.memory.lookup id = some row ∧ SameButLinks row row') ∨ row'.updatedAt = now := by
  obtain ⟨-, content, title, hmem, -⟩ := h
  rw [hmem, Keyed.lookup_insert] at hrow'
  by_cases hid : id = newId
  · rw [if_pos hid] at hrow'
    cases hrow'
    exact Or.inr rfl
  · rw [if_neg hid] at hrow'
    exact Or.inl ⟨row', hrow', .refl row'⟩

/-- What a call leaves of a row, or writes at its time. -/
theorem Effect.kept_or_written {request : Request} (h : Effect env db db' request)
    (hrow' : db'.memory.lookup id = some row') :
    (∃ row, db.memory.lookup id = some row ∧ SameButLinks row row') ∨
      writeTime request = some row'.updatedAt := by
  have htime : ∀ {now : Int}, row'.updatedAt = now → some now = some row'.updatedAt := fun e =>
    congrArg some e.symm
  cases h with
  | insert hnew => exact (hnew.kept_or_new hrow').imp_right htime
  | imported hnew => exact (hnew.kept_or_new hrow').imp_right htime
  | @updateMeta _ _ _ _ _ _ now hold hmem hfts =>
    exact (lookup_stamped now (fun _ => rfl) hmem hrow').imp_right htime
  | @supersede _ _ _ now mid hold hnew hmem hfts =>
    rcases lookup_stamped now (fun _ => rfl) hmem hrow' with ⟨row, hrow, hsame⟩ | hnow
    · rcases hnew.kept_or_new hrow with ⟨row₀, hrow₀, hsame₀⟩ | hnow
      · exact Or.inl ⟨row₀, hrow₀, hsame₀.trans hsame⟩
      · exact Or.inr (htime (hsame.updatedAt.trans hnow))
    · exact Or.inr (htime hnow)
  | @retract _ _ now hold hmem hfts =>
    exact (lookup_stamped now (fun _ => rfl) hmem hrow').imp_right htime
  | purge hold hmem hfts =>
    rw [hmem, Keyed.lookup_updateAll, Option.map_eq_some_iff] at hrow'
    obtain ⟨row, hrow, rfl⟩ := hrow'
    rw [Keyed.lookup_erase] at hrow
    split at hrow
    · cases hrow
    · exact Or.inl ⟨row, hrow, rfl⟩

/-- Every stored row was received as it is, or is still past the cursor. -/
def CaughtUp (s : Sync) : Prop :=
  ∀ id row, s.conn.db.memory.lookup id = some row →
    s.cursor < row.updatedAt ∨ ∃ r ∈ s.received, Reflects r id row

theorem call_caughtUp {s : Sync} {call : Call} (h : CaughtUp s)
    (hafter : ∀ now, writeTime call.request = some now → s.cursor < now) :
    CaughtUp (SyncStep.apply env scan s (.call call)) := by
  intro id row' hrow'
  change (serve env s.conn call).2.db.memory.lookup id = some row' at hrow'
  have hkept : ∀ row, s.conn.db.memory.lookup id = some row → SameButLinks row row' →
      s.cursor < row'.updatedAt ∨ ∃ r ∈ s.received, Reflects r id row' := by
    intro row hrow hsame
    rcases h id row hrow with hahead | ⟨r, hr, hid, hreflects⟩
    · exact Or.inl (hsame.updatedAt ▸ hahead)
    · exact Or.inr ⟨r, hr, hid, hreflects.trans hsame⟩
  rcases serve_cases env s.conn call with ⟨hmem, -⟩ | heffect | ⟨_, _, _, -, -, -, hmem, -⟩
  · rw [hmem] at hrow'
    exact hkept row' hrow' (.refl row')
  · rcases heffect.kept_or_written hrow' with ⟨row, hrow, hsame⟩ | hwritten
    · exact hkept row hrow hsame
    · exact Or.inl (hafter _ hwritten)
  · rw [hmem] at hrow'
    exact hkept row' hrow' (.refl row')

theorem poll_caughtUp (hscan : ∀ db c, (scan db c).Perm (Keyed.rows db.memory)) {s : Sync}
    (h : CaughtUp s)
    (huncut : ∀ t, ¬ Feed.Cut rowTime 1000 (Keyed.rows s.conn.db.memory) s.cursor 1 t) :
    CaughtUp (SyncStep.apply env scan s .poll) := by
  intro id row hrow
  change Feed.newest recordTime s.cursor (changesSince scan s.conn.db s.cursor) < row.updatedAt ∨
    ∃ r ∈ s.received ++ changesSince scan s.conn.db s.cursor, Reflects r id row
  rw [changesSince_eq hscan, newest_map]
  rcases h id row hrow with hahead | ⟨r, hr, hreflects⟩
  · rcases Feed.poll_cases rowTime (by decide : 0 < 1000) (nodup_rows s.conn.db.memory)
        (hscan s.conn.db s.cursor) s.cursor with
      ⟨hempty, hnone⟩ | ⟨-, -, -, ⟨-, hall, -⟩ | ⟨hcut, -⟩⟩
    · have hmem : (id, row) ∈ Feed.ahead rowTime (Keyed.rows s.conn.db.memory) s.cursor :=
        Feed.mem_ahead.mpr ⟨Keyed.mem_rows.mpr hrow, hahead⟩
      rw [hnone] at hmem
      cases hmem
    · by_cases hlater : Feed.newest rowTime s.cursor
          (Feed.poll rowTime 1000 (scan s.conn.db s.cursor) s.cursor) < row.updatedAt
      · exact Or.inl hlater
      · refine Or.inr ⟨recordFor s.conn.db (id, row), mem_append_right _ ?_, rfl, .refl row⟩
        exact mem_map.mpr ⟨(id, row),
          hall (id, row) (Keyed.mem_rows.mpr hrow) hahead (Int.not_lt.mp hlater), rfl⟩
    · exact absurd hcut (huncut _)
  · exact Or.inr ⟨r, mem_append_left _ hr, hreflects⟩

theorem apply_caughtUp (hscan : ∀ db c, (scan db c).Perm (Keyed.rows db.memory)) (s : Sync)
    (step : SyncStep) (h : CaughtUp s) (hkeeps : KeepsUp s step) :
    CaughtUp (SyncStep.apply env scan s step) := by
  cases step with
  | call call => exact call_caughtUp h hkeeps
  | poll => exact poll_caughtUp hscan h hkeeps

/-! ## Readers -/

/-- A reader that starts below every time of a store at rest gets every record exactly when its
batches cut no second. One that polls between writes, in a run whose writes come after its cursor
and whose polls cut no second, has every row as it is stored or still ahead, and gets the rest when
it reads on. -/
theorem changes_received (env : Env) (scan : MemoryDb → Int → List (Uuid × MemoryRow))
    (hscan : ∀ db c, (scan db c).Perm (Keyed.rows db.memory)) :
    (∀ db fuel cursor, (Keyed.rows db.memory).length < fuel →
      (∀ id row, db.memory.lookup id = some row → cursor < row.updatedAt) →
      ∃ received, consume scan db fuel cursor = some received ∧
        ((∀ id r, recordOf db id = some r → r ∈ received) ↔
          Feed.Uncut rowTime 1000 (Keyed.rows db.memory) cursor)) ∧
    (∀ cursor s, Reached (SyncStep.apply env scan) KeepsUp ⟨openStore, cursor, []⟩ s →
      CaughtUp s ∧ ∀ fuel, (Keyed.rows s.conn.db.memory).length < fuel →
        ∃ rest, consume scan s.conn.db fuel s.cursor = some rest ∧
          (Feed.Uncut rowTime 1000 (Keyed.rows s.conn.db.memory) s.cursor →
            ∀ id row, s.conn.db.memory.lookup id = some row →
              ∃ r ∈ s.received ++ rest, Reflects r id row)) := by
  refine ⟨?_, ?_⟩
  · intro db fuel cursor hfuel hbelow
    obtain ⟨received, hconsume, hiff⟩ := consume_exact hscan db hfuel cursor
    refine ⟨received, hconsume, ?_⟩
    rw [← hiff]
    constructor
    · intro h id row hrow _
      exact h id (recordFor db (id, row)) (by rw [recordOf, hrow]; rfl)
    · intro h id r hr
      obtain ⟨row, hrow, rfl⟩ := Option.map_eq_some_iff.mp hr
      exact h id row hrow (hbelow id row hrow)
  · intro cursor s hreached
    have hcaught : CaughtUp s := by
      refine hreached.invariant ?_ (apply_caughtUp hscan)
      intro id row hrow
      cases hrow
    refine ⟨hcaught, ?_⟩
    intro fuel hfuel
    obtain ⟨rest, hconsume, hiff⟩ := consume_exact hscan s.conn.db hfuel s.cursor
    refine ⟨rest, hconsume, ?_⟩
    intro huncut id row hrow
    rcases hcaught id row hrow with hahead | ⟨r, hr, hreflects⟩
    · exact ⟨_, mem_append_right _ (hiff.mpr huncut id row hrow hahead), rfl, .refl row⟩
    · exact ⟨r, mem_append_left _ hr, hreflects⟩

/-- The rows in the order in which they are stored. -/
def storedOrder (db : MemoryDb) (_ : Int) : List (Uuid × MemoryRow) := Keyed.rows db.memory

def syncAll (steps : List SyncStep) : Sync :=
  steps.foldl (SyncStep.apply plainEnv storedOrder) ⟨openStore, 0, []⟩

/-- A note that is retracted after a poll is received again. -/
theorem changes_received_retract :
    ∃ rest, consume storedOrder
        (syncAll [.call (addCall plantsNote 1 10), .poll, .call (retractCall 1 20)]).conn.db 2
        (syncAll [.call (addCall plantsNote 1 10), .poll, .call (retractCall 1 20)]).cursor =
          some rest ∧
      ∀ id row, (syncAll [.call (addCall plantsNote 1 10), .poll,
          .call (retractCall 1 20)]).conn.db.memory.lookup id = some row →
        ∃ r ∈ (syncAll [.call (addCall plantsNote 1 10), .poll,
          .call (retractCall 1 20)]).received ++ rest, Reflects r id row := by
  have hadd : KeepsUp (syncAll []) (.call (addCall plantsNote 1 10)) := by
    intro now hnow
    cases hnow
    decide +kernel
  have hpoll : KeepsUp (syncAll [.call (addCall plantsNote 1 10)]) .poll := by
    intro t
    exact Feed.uncut_of_length_le (by decide +kernel) 1 t
  have hretract : KeepsUp (syncAll [.call (addCall plantsNote 1 10), .poll])
      (.call (retractCall 1 20)) := by
    intro now hnow
    cases hnow
    decide +kernel
  have hreached := (changes_received plainEnv storedOrder (fun _ _ => .refl _)).2 0 _
    (.step (.step (.step .start _ hadd) _ hpoll) _ hretract)
  obtain ⟨rest, hconsume, hall⟩ := hreached.2 2 (by decide +kernel)
  exact ⟨rest, hconsume, hall (Feed.uncut_of_length_le (by decide +kernel))⟩

/-- A second note of the second that a poll has seen is never answered. -/
theorem same_second_write_lost :
    (syncAll [.call (addCall plantsNote 1 10), .poll,
      .call (addCall teaNote 2 10)]).received.map (·.id) = [1] ∧
    consume storedOrder
      (syncAll [.call (addCall plantsNote 1 10), .poll, .call (addCall teaNote 2 10)]).conn.db 3
      (syncAll [.call (addCall plantsNote 1 10), .poll, .call (addCall teaNote 2 10)]).cursor =
        some [] ∧
    (recordOf (syncAll [.call (addCall plantsNote 1 10), .poll,
      .call (addCall teaNote 2 10)]).conn.db 2).isSome = true := by
  decide +kernel

end ContextDesk.Memory
