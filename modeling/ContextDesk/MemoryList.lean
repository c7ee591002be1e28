import ContextDesk.Lib.Sorting
import ContextDesk.MemoryStoreSpec

/-!
# The list of records

`list_records` reads three times as many ids as it may return, newest first, and filters then. A
store whose newest records are refused by the filters therefore lists fewer records than it has:
the list is right exactly when the ids that were read hold as many records as it may return, or all
there are (`listRecords_exact`).

Which of two records updated in the same second is read first is open; `scan` is the order of the
`SELECT`.
-/

namespace ContextDesk.Memory

open Lib List

/-- `valid_from IS NULL OR valid_from <= now`, and `valid_to IS NULL OR valid_to > now`. -/
def isValidNow (validFrom validTo : Option Int) (nowSecs : Int) : Bool :=
  validFrom.all (fun f => decide (f ≤ nowSecs)) && validTo.all fun t => decide (nowSecs < t)

def MemoryRecord.kind (r : MemoryRecord) : Kind := Kind.parse r.row.kind

/-- Whether a record has one of the kinds that are asked for. -/
def ofKinds (kinds : Option (List Kind)) (r : MemoryRecord) : Bool :=
  kinds.all fun ks => ks.any fun k => decide (k = r.kind)

def statusListed (includeSuperseded includeRetracted : Bool) (nowSecs : Int) (r : MemoryRecord) :
    Bool :=
  match r.row.status with
  | .active => isValidNow r.row.validFrom r.row.validTo nowSecs || includeSuperseded
  | .superseded => includeSuperseded
  | .retracted => includeRetracted
  | .expired => includeSuperseded

/-- The status, the validity and the kind that a listed record has. -/
def listed (kinds : Option (List Kind)) (includeSuperseded includeRetracted : Bool) (nowSecs : Int)
    (r : MemoryRecord) : Bool :=
  statusListed includeSuperseded includeRetracted nowSecs r && ofKinds kinds r

def collectListed (db : MemoryDb) (keep : MemoryRecord → Bool) (limit : Nat) :
    List Uuid → List MemoryRecord → List MemoryRecord
  | [], out => out
  | id :: ids, out =>
    match recordOf db id with
    | none => collectListed db keep limit ids out
    | some rec =>
      if keep rec then
        let out := out ++ [rec]
        if limit ≤ out.length then out else collectListed db keep limit ids out
      else collectListed db keep limit ids out

def listRecords (db : MemoryDb) (scan : List Uuid) (kinds : Option (List Kind))
    (includeSuperseded includeRetracted : Bool) (nowSecs : Int) (limit : Nat) :
    List MemoryRecord :=
  let cap := max 1 (min limit 500)
  collectListed db (listed kinds includeSuperseded includeRetracted nowSecs) limit
    (scan.take (cap * 3)) []

/-! ## What is stored -/

def storedRecords (db : MemoryDb) : List MemoryRecord := db.memory.keys.filterMap (recordOf db)

def UpdatedFirst (a b : MemoryRecord) : Prop := b.row.updatedAt ≤ a.row.updatedAt

/-- `SELECT id FROM memory ORDER BY updated_at DESC`. -/
structure ByUpdate (db : MemoryDb) (scan : List Uuid) : Prop where
  every : scan.Perm db.memory.keys
  newest : (scan.filterMap (recordOf db)).Pairwise UpdatedFirst

theorem filterMap_take {α β : Type} {f : α → Option β} {l : List α}
    (h : ∀ a ∈ l, (f a).isSome = true) (n : Nat) :
    (l.take n).filterMap f = (l.filterMap f).take n := by
  induction l generalizing n with
  | nil => simp
  | cons a l ih =>
    obtain ⟨ha, hl⟩ := forall_mem_cons.mp h
    obtain ⟨b, hb⟩ := Option.isSome_iff_exists.mp ha
    cases n with
    | zero => rfl
    | succ n =>
      rw [take_succ_cons, filterMap_cons_some hb, filterMap_cons_some hb,
        take_succ_cons, ih hl]

theorem ByUpdate.isSome {db : MemoryDb} {scan : List Uuid} (h : ByUpdate db scan) :
    ∀ id ∈ scan, (recordOf db id).isSome = true := by
  intro id hid
  rw [h.every.mem_iff, ← AList.mem_keys] at hid
  obtain ⟨row, hrow⟩ := Keyed.exists_of_mem hid
  rw [recordOf, hrow]
  rfl

/-! ## The loop -/

theorem collectListed_eq (db : MemoryDb) (keep : MemoryRecord → Bool) {limit : Nat}
    (ids : List Uuid) {out : List MemoryRecord} (h : out.length < limit) :
    collectListed db keep limit ids out =
      out ++ ((ids.filterMap (recordOf db)).filter keep).take (limit - out.length) := by
  induction ids generalizing out with
  | nil => simp [collectListed]
  | cons id ids ih =>
    unfold collectListed
    cases hrec : recordOf db id with
    | none =>
      rw [filterMap_cons_none hrec]
      exact ih h
    | some rec =>
      rw [filterMap_cons_some hrec]
      simp only
      by_cases hkeep : keep rec = true
      · rw [if_pos hkeep, filter_cons_of_pos hkeep,
          show limit - out.length = limit - (out.length + 1) + 1 by omega, take_succ_cons,
          length_append, length_singleton]
        by_cases hfull : limit ≤ out.length + 1
        · rw [if_pos hfull, show limit - (out.length + 1) = 0 by omega, take_zero]
        · rw [if_neg hfull, ih (by rw [length_append, length_singleton]; omega),
            length_append, length_singleton, append_assoc]
          rfl
      · rw [if_neg hkeep, filter_cons_of_neg hkeep]
        exact ih h

theorem listRecords_eq {db : MemoryDb} {scan : List Uuid} (hscan : ByUpdate db scan)
    (kinds : Option (List Kind)) (includeSuperseded includeRetracted : Bool) (nowSecs : Int)
    {limit : Nat} (hlimit : 1 ≤ limit ∧ limit ≤ 500) :
    listRecords db scan kinds includeSuperseded includeRetracted nowSecs limit =
      (((scan.filterMap (recordOf db)).take (3 * limit)).filter
        (listed kinds includeSuperseded includeRetracted nowSecs)).take limit := by
  unfold listRecords
  simp only
  rw [collectListed_eq db _ _ (Nat.lt_of_lt_of_le Nat.zero_lt_one hlimit.1), nil_append, length_nil,
    Nat.sub_zero, filterMap_take hscan.isSome, show max 1 (min limit 500) * 3 = 3 * limit by omega]

/-- The list is the most recent of the records that the filters let through, exactly when the
newest `3 * limit` records hold that many. -/
theorem listRecords_exact {db : MemoryDb} {scan : List Uuid} (hscan : ByUpdate db scan)
    (kinds : Option (List Kind)) (includeSuperseded includeRetracted : Bool) (nowSecs : Int)
    {limit : Nat} (hlimit : 1 ≤ limit ∧ limit ≤ 500) :
    TopOf UpdatedFirst limit
        ((storedRecords db).filter (listed kinds includeSuperseded includeRetracted nowSecs))
        (listRecords db scan kinds includeSuperseded includeRetracted nowSecs limit) ↔
      min limit ((storedRecords db).filter
          (listed kinds includeSuperseded includeRetracted nowSecs)).length ≤
        (((scan.filterMap (recordOf db)).take (3 * limit)).filter
          (listed kinds includeSuperseded includeRetracted nowSecs)).length := by
  rw [listRecords_eq hscan kinds includeSuperseded includeRetracted nowSecs hlimit]
  exact top_of_scan (hscan.every.filterMap _) hscan.newest

/-- Four notes, the three newer ones retracted. -/
def mostlyRetracted : MemoryDb :=
  (serveAll plainEnv openStore [addCall plantsNote 1 10, addCall plantsNote 2 20,
    addCall plantsNote 3 30, addCall plantsNote 4 40, retractCall 2 50, retractCall 3 60,
    retractCall 4 70]).db

theorem mostlyRetracted_scan : ByUpdate mostlyRetracted [4, 3, 2, 1] where
  every := by decide +kernel
  newest := by
    unfold UpdatedFirst
    decide +kernel

theorem listRecords_exact_one :
    TopOf UpdatedFirst 2 ((storedRecords mostlyRetracted).filter (listed none false false 80))
      (listRecords mostlyRetracted [4, 3, 2, 1] none false false 80 2) :=
  (listRecords_exact mostlyRetracted_scan none false false 80 (by decide)).mpr
    (by decide +kernel)

/-- With a limit of one, the note that is left is not listed. -/
theorem listRecords_misses :
    ByUpdate mostlyRetracted [4, 3, 2, 1] ∧
      ¬ TopOf UpdatedFirst 1 ((storedRecords mostlyRetracted).filter (listed none false false 80))
        (listRecords mostlyRetracted [4, 3, 2, 1] none false false 80 1) := by
  refine ⟨mostlyRetracted_scan, fun h => ?_⟩
  exact absurd h.length (by decide +kernel)

end ContextDesk.Memory
