import ContextDesk.Cases.CallFaults
import ContextDesk.Lib.Boundary

/-!
# Calls on the memory store between the statements of others

The memory store has one boundary, and a call that fails inside it restores the snapshot of the whole
store. Most calls write inside it. `setOccurredAt` and `appendDomainTimeline` write outside it, so
that another call's rollback can take back what they wrote. Records of the audit log are removed by
their ids, and those of other calls stay.
-/

namespace ContextDesk

open Lib Boundary

/-- The case store and the audit log; calls are numbered. -/
abbrev SharedStore := Shared Nat CaseDb AuditRecord

abbrev StoreMove := Move Nat CaseDb AuditRecord

/-- What a statement of the case store does when it is not refused. -/
def CaseM.effect (x : CaseM Unit) (db : CaseDb) : CaseDb := (x ⟨db, []⟩).2.db

def occurredAtEvent (caseId : JsString) (actor : Actor) (clientTime : Option JsString)
    (occurrence previous : NormalizedOccurredAt) : TimelineInsert where
  kind := "case_occurred_at"
  actor := actor
  targetId := some caseId
  clientTime := clientTime
  payload := .object [("occurredAt", jsNullable .string occurrence.occurredAt),
    ("occurredAtPrecision", jsText occurrence.occurredAtPrecision.text),
    ("occurredAtZone", jsText occurrence.occurredAtZone.text),
    ("previousOccurredAt", jsNullable .string previous.occurredAt)]

/-- The statements of `setOccurredAt` that write, after it has read the row. -/
def setOccurredAtMoves (call : Nat) (stamp : Stamp) (caseId : JsString) (actor : Actor)
    (origin : JsString) (clientTime : Option JsString)
    (occurrence previous : NormalizedOccurredAt) : List StoreMove :=
  [.write call (updateOccurredAt caseId occurrence).effect,
    .write call (appendTimeline caseId (occurredAtEvent caseId actor clientTime occurrence previous)
      (stamp.now 1)).effect,
    .record call ⟨actor.id, "case_occurred_at", caseId ++ JsString.ofString ":" ++
      occurrence.occurredAt.getD (JsString.ofString "unrecorded"), origin, .success⟩,
    .returns call]

/-- The statements of `setLegalHold`. -/
def setLegalHoldMoves (call : Nat) (stamp : Stamp) (caseId : JsString) (actor : Actor)
    (legalHold : Bool) (origin : JsString) : List StoreMove :=
  [.enter call,
    .write call (updateCaseLegalHold caseId legalHold).effect,
    .write call (appendTimeline caseId
      { kind := "legal_hold", actor, targetId := some caseId, clientTime := none
        payload := .object [("legalHold", .bool legalHold)] } (stamp.now 0)).effect,
    .record call ⟨actor.id, "legal_hold",
      caseId ++ JsString.ofString (":" ++ toString legalHold), origin, .success⟩,
    .commit call,
    .returns call]

def SharedStore.run (s : SharedStore) (moves : List StoreMove) : SharedStore :=
  moves.foldl Shared.step s

/-- The runs of the calls: any call may make any statement, inside the boundary if it has entered
it. -/
abbrev StoreRun (meets : SharedStore → StoreMove → Prop) : SharedStore → SharedStore → Prop :=
  Reached Shared.step meets

/-- When no call that is rolled back shared the store with another writer, every store that is
reached is what the calls wrote, without what was rolled back. -/
theorem memoryStore_isolated (start s : SharedStore) (hfresh : Fresh start)
    (hrun : StoreRun Meets start s) : Isolated start s :=
  isolated_of_run hfresh hrun

/-- The store with one case, and nothing written. -/
def freshStore : SharedStore := ⟨oneCase, [], 1, none, [], [], [], [], []⟩

theorem fresh_freshStore : Fresh freshStore :=
  ⟨rfl, rfl, rfl, fun _ h => absurd h List.not_mem_nil⟩

def backfillMoves : List StoreMove :=
  setOccurredAtMoves 0 noonStamp [1] ⟨[7], [7]⟩ [] none
    ⟨some (JsString.ofString "2024-05-01"), .day, .unspecified⟩ ⟨none, .unknown, .unspecified⟩

def holdMoves : List StoreMove := (setLegalHoldMoves 1 noonStamp [1] ⟨[7], [7]⟩ true []).take 2

/-- The backfill, and after it a legal hold that is rolled back. -/
theorem memoryStore_isolated_backfill :
    Isolated freshStore ((freshStore.run (backfillMoves ++ holdMoves)).step (.rollback 1)) := by
  have hrun : StoreRun Meets freshStore (freshStore.run (backfillMoves ++ holdMoves)) := by
    refine Reached.foldl .start fun m hm _ => ?_
    simp only [backfillMoves, setOccurredAtMoves, holdMoves, setLegalHoldMoves, List.take,
      List.cons_append, List.nil_append, List.mem_cons, List.not_mem_nil, or_false] at hm
    rcases hm with rfl | rfl | rfl | rfl | rfl | rfl <;> trivial
  refine memoryStore_isolated freshStore _ fresh_freshStore (.step hrun (.rollback 1) ?_)
  intro i hi e he hne
  cases hi
  rcases List.mem_cons.mp he with rfl | he
  · exact absurd rfl hne
  · cases he

/-- The backfill has returned, and the rollback of a legal hold that was inside before takes it
back. -/
theorem memoryStore_loses_backfill :
    ∃ start s : SharedStore, Fresh start ∧ StoreRun (fun _ _ => True) start s ∧
      s.returned = [0] ∧ s.undone = [1] ∧
      (s.store.cases [1]).map (·.occurrence.occurredAt) = some none ∧
      ((written start.store s.log).cases [1]).map (·.occurrence.occurredAt) =
        some (some (JsString.ofString "2024-05-01")) ∧ ¬ Isolated start s := by
  have hrun : StoreRun (fun _ _ => True) freshStore
      (freshStore.run (holdMoves ++ backfillMoves ++ [.rollback 1])) :=
    Reached.foldl .start fun _ _ _ => trivial
  refine ⟨freshStore, _, fresh_freshStore, hrun, rfl, rfl, rfl, rfl, fun h => ?_⟩
  have hcase := congrArg (fun db : CaseDb => (db.cases [1]).map (·.occurrence)) h.store
  exact absurd hcase (by decide)

end ContextDesk
