import ContextDesk.Cases.Situation
import ContextDesk.Lib.Runs

/-!
# Tombstones and the legal hold, in PostgreSQL

One case and the transactions on it that are open. A transaction's writes are its own until it
commits; a plain read sees what is committed. The row of the case is locked by `lockCase` and by
the `UPDATE` in `appendTimeline`, until the end of the transaction, so that timeline events are
numbered in the order of the commits. `tombstoneContribution` reads the hold before it has the
lock.

`HoldRead` is the condition: what a tombstone read of the hold is still so when it takes the lock.
-/

namespace ContextDesk

open Lib

/-- The two kinds of event that matter here; the timeline is in the order of `seq`. -/
inductive HoldEvent where
  | legal_hold (legalHold : Bool)
  | contribution_tombstoned (contributionId : JsString) (revision : Nat)
  deriving DecidableEq

structure HoldDb where
  legalHold : Bool
  revisions : JsString → List RevisionRow
  timeline : List HoldEvent := []
  /-- The targets of the audit records. -/
  audit : List JsString := []

/-- How far a call of `tombstoneContribution` is. -/
inductive TombstoneStage where
  | begun
  /-- `requireCase` found no hold. -/
  | permitted
  | latest (latest : RevisionRow)
  /-- `insertRevision` wrote the tombstone. -/
  | inserted (next : RevisionRow)
  /-- `appendTimeline` took the lock. -/
  | appended (next : RevisionRow)
  | audited (next : RevisionRow)

/-- How far a call of `setLegalHold` is. -/
inductive HoldStage where
  | begun
  | locked
  | updated
  | appended
  | audited
  deriving DecidableEq

structure TombstoneCall where
  contributionId : JsString
  actor : Actor
  now : JsString

inductive HoldTx where
  | tombstone (call : TombstoneCall) (stage : TombstoneStage)
  | setLegalHold (caseId : JsString) (legalHold : Bool) (stage : HoldStage)

structure HoldState where
  db : HoldDb
  /-- The transaction that has the row of the case. -/
  lock : Option Nat := none
  txs : Nat → Option HoldTx := fun _ => none
  /-- The keys of the revisions that are written and not committed. -/
  inserting : List (JsString × Nat) := []

inductive HoldMove where
  | begin (id : Nat) (call : TombstoneCall)
  | beginHold (id : Nat) (caseId : JsString) (legalHold : Bool)
  | advance (id : Nat)
  /-- A step of the transaction fails, and it is rolled back. -/
  | abort (id : Nat)

/-- The key of the revision that the transaction wrote. -/
def HoldTx.key : HoldTx → Option (JsString × Nat)
  | .tombstone call (.inserted next) | .tombstone call (.appended next)
  | .tombstone call (.audited next) => some (call.contributionId, next.revision)
  | _ => none

/-- The transaction ends: its lock and its key are free. -/
def HoldState.finish (s : HoldState) (id : Nat) : HoldState :=
  { s with
    lock := if s.lock = some id then none else s.lock
    txs := Function.update s.txs id none
    inserting := match (s.txs id).bind HoldTx.key with
      | some key => s.inserting.erase key
      | none => s.inserting }

def HoldState.goOn (s : HoldState) (id : Nat) (tx : HoldTx) : HoldState :=
  { s with txs := Function.update s.txs id (some tx) }

section

variable (hashContributionContent : ContributionKind → JsString → JsString)

def tombstoneOf (call : TombstoneCall) (latest : RevisionRow) : RevisionRow :=
  { latest with
    revision := latest.revision + 1
    predecessorRevision := some latest.revision
    body := []
    contentHash := hashContributionContent latest.kind []
    authorId := call.actor.id
    authorUsername := call.actor.username
    createdAt := call.now
    tombstone := true }

def HoldState.advanceTombstone (s : HoldState) (id : Nat) (call : TombstoneCall) :
    TombstoneStage → HoldState
  | .begun =>
    -- `assertCanTombstone` on a row that was read without a lock
    if s.db.legalHold then s.finish id else s.goOn id (.tombstone call .permitted)
  | .permitted =>
    match (s.db.revisions call.contributionId).getLast? with
    | none => s.finish id
    | some latest =>
      if latest.tombstone then s.finish id else s.goOn id (.tombstone call (.latest latest))
  | .latest latest =>
    let next := tombstoneOf hashContributionContent call latest
    if (s.db.revisions call.contributionId).any (·.revision = next.revision) then s.finish id
    -- the unique index waits for the transaction that wrote the same key
    else if (call.contributionId, next.revision) ∈ s.inserting then s
    else { s.goOn id (.tombstone call (.inserted next)) with
           inserting := (call.contributionId, next.revision) :: s.inserting }
  | .inserted next =>
    if s.lock = none then
      { s.goOn id (.tombstone call (.appended next)) with lock := some id }
    else s
  | .appended next => s.goOn id (.tombstone call (.audited next))
  | .audited next =>
    { s.finish id with
      db := { s.db with
        revisions := Function.update s.db.revisions call.contributionId
          (s.db.revisions call.contributionId ++ [next])
        timeline := s.db.timeline ++
          [.contribution_tombstoned call.contributionId next.revision]
        audit := s.db.audit ++ [call.contributionId] } }

def HoldState.advanceHold (s : HoldState) (id : Nat) (caseId : JsString) (legalHold : Bool) :
    HoldStage → HoldState
  | .begun =>
    if s.lock = none then
      { s.goOn id (.setLegalHold caseId legalHold .locked) with lock := some id }
    else s
  | .locked => s.goOn id (.setLegalHold caseId legalHold .updated)
  | .updated => s.goOn id (.setLegalHold caseId legalHold .appended)
  | .appended => s.goOn id (.setLegalHold caseId legalHold .audited)
  | .audited =>
    { s.finish id with
      db := { s.db with
        legalHold
        timeline := s.db.timeline ++ [.legal_hold legalHold]
        audit := s.db.audit ++ [caseId] } }

def HoldState.step (s : HoldState) : HoldMove → HoldState
  | .begin id call =>
    if (s.txs id).isSome then s else s.goOn id (.tombstone call .begun)
  | .beginHold id caseId legalHold =>
    if (s.txs id).isSome then s else s.goOn id (.setLegalHold caseId legalHold .begun)
  | .advance id =>
    match s.txs id with
    | some (.tombstone call stage) => s.advanceTombstone hashContributionContent id call stage
    | some (.setLegalHold caseId legalHold stage) => s.advanceHold id caseId legalHold stage
    | none => s
  | .abort id => s.finish id

end

/-- What is known of an open transaction: from the lock on it has the row, and a tombstone that has
the row is on a case without a hold. -/
def HoldTx.Safe (lock : Option Nat) (legalHold : Bool) (id : Nat) : HoldTx → Prop
  | .tombstone _ (.appended _) | .tombstone _ (.audited _) => lock = some id ∧ legalHold = false
  | .setLegalHold _ _ .begun => True
  | .setLegalHold _ _ _ => lock = some id
  | _ => True

section

variable {hashContributionContent : ContributionKind → JsString → JsString}

/-- A case before its first hold or tombstone. -/
def HoldState.start (legalHold : Bool) (revisions : JsString → List RevisionRow) : HoldState :=
  { db := { legalHold, revisions } }

end

end ContextDesk
