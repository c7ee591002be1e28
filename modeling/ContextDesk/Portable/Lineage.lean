import ContextDesk.Lib.Lineage
import ContextDesk.Portable.Bundle

/-!
# Lines of versions

The three checks of a bundle that follow predecessors: the revisions of a contribution or decision,
the parents of the snapshots, and the gold rows of an experiment. Each has a lemma that says what
its success means.
-/

namespace ContextDesk

open Lib Lib.Lineage List

/-! ## Unique ids -/

def uniqueIdsFrom (path : String) : Nat → List JsString → List JsString → Outcome Unit
  | _, _, [] => .ok ()
  | i, seen, id :: ids => do
    requireSafeIdentifier (itemPath path i) id
    ensure (id ∉ seen) (ContractViolation (itemPath path i) "duplicate id")
    uniqueIdsFrom path (i + 1) (id :: seen) ids

def uniqueIds (path : String) (ids : List JsString) : Outcome Unit := uniqueIdsFrom path 0 [] ids

variable {path : String} {u : Unit}

/-- `prev` is the revision before. -/
def checkRevisions (path : String) : List Nat → Option Nat → List PortableRevision → Outcome Unit
  | _, _, [] => .ok ()
  | seen, prev, row :: rows => do
    ensure (1 ≤ row.revision) (ContractViolation path "revision must be >= 1")
    ensure (row.revision ∉ seen)
      (ContractViolation path "corrupt version chain: duplicate revision")
    match prev with
    | none =>
      ensure (row.revision = 1 ∧ row.predecessorRevision = none)
        (ContractViolation path "corrupt version chain: revision 1 must have null predecessor")
    | some before =>
      ensure (row.revision = before + 1 ∧ row.predecessorRevision = some before)
        (ContractViolation path "corrupt version chain")
    checkRevisions path (row.revision :: seen) (some row.revision) rows

def revisionsOf (rows : List PortableRevision) (id : JsString) : List PortableRevision :=
  (rows.filter fun row => row.id = id).insertionSort fun a b => a.revision ≤ b.revision

def assertVersionChain (path : String) (rows : List PortableRevision) : Outcome Unit :=
  ensureAll (fun id => checkRevisions (path ++ " id=" ++ keyText id) [] none (revisionsOf rows id))
    (rows.map (·.id)).dedup

variable {rows : List PortableRevision}

def truthy (value : Option JsString) : Option JsString := value.filter (· ≠ [])

/-- The parent in the map of the snapshots, where a later row replaces an earlier one. -/
def parentOf (snapshots : List PortableSnapshot) (id : JsString) : Option JsString :=
  (snapshots.reverse.find? fun snap => snap.id = id).bind (·.parentSnapshotId)

/-- The loop over the parents; a walk that is longer than the list has met a snapshot twice. -/
def walkSnapshots (snapshots : List PortableSnapshot) (path : String) :
    Nat → List JsString → Option JsString → Outcome Unit
  | _, _, none => .ok ()
  | 0, _, some _ => .error (ContractViolation path "self/cyclic lineage")
  | n + 1, seen, some cursor => do
    ensure (cursor ∉ seen) (ContractViolation path "self/cyclic lineage")
    let next := truthy (parentOf snapshots cursor)
    ensure (∀ parent ∈ next, parent ∈ snapshots.map (·.id))
      (ContractViolation path "dangling parent snapshot")
    walkSnapshots snapshots path n (cursor :: seen) next

def snapshotPath (snap : PortableSnapshot) : String := "$.snapshots id=" ++ keyText snap.id

def detectSnapshotCycles (snapshots : List PortableSnapshot) : Outcome Unit := do
  ensureAll (fun snap => ensure (snap.parentSnapshotId ≠ some snap.id)
    (ContractViolation (snapshotPath snap) "self/cyclic lineage")) snapshots
  ensureAll (fun snap => do
    walkSnapshots snapshots (snapshotPath snap) (snapshots.length + 1) [] (truthy (some snap.id))
    ensure (¬ (snap.lineageClass = .root ∧ snap.parentSnapshotId ≠ none))
      (ContractViolation (snapshotPath snap) "root lineage cannot name a parent")
    ensure (¬ (snap.lineageClass = .derived ∧ snap.parentSnapshotId = none))
      (ContractViolation (snapshotPath snap) "derived lineage requires a parent")) snapshots

/-- The row of an id in the map of the rows, where a later row replaces an earlier one. -/
def goldOf (rows : List PortableGold) (id : JsString) : Option PortableGold :=
  rows.reverse.find? fun row => row.goldId = id

def goldPath (i : Nat) : String := itemPath "$.gold" i ++ ".predecessorGoldId"

def checkGoldRow (rows : List PortableGold) (i : Nat) (row : PortableGold) : Outcome Unit := do
  ensure (1 ≤ row.version) (ContractViolation (itemPath "$.gold" i ++ ".version")
    "version must be >= 1")
  ensure (¬ (row.version = 1 ∧ row.predecessorGoldId ≠ none)) (ContractViolation (goldPath i)
    "corrupt version chain: version 1 must have no predecessor")
  ensure (¬ (1 < row.version ∧ row.predecessorGoldId = none)) (ContractViolation (goldPath i)
    "corrupt version chain: version > 1 requires a predecessor")
  match row.predecessorGoldId with
  | none => .ok ()
  | some predecessor => do
    requireSafeIdentifier (goldPath i) predecessor
    ensure (predecessor ≠ row.goldId) (ContractViolation (goldPath i)
      "gold predecessor self-reference")
    ensure ((goldOf rows predecessor).isSome = true) (ContractViolation (goldPath i)
      "dangling gold predecessor")

def goldBefore (rows : List PortableGold) (id : JsString) : Option JsString :=
  (goldOf rows id).bind fun row => row.predecessorGoldId.filter fun p => (goldOf rows p).isSome

def checkForks : Nat → List (JsString × JsString) → List PortableGold → Outcome Unit
  | _, _, [] => .ok ()
  | i, successors, row :: rows => do
    match row.predecessorGoldId with
    | none => checkForks (i + 1) successors rows
    | some predecessor => do
      let prior := (successors.find? fun pair => pair.1 = predecessor).map Prod.snd
      ensure (∀ successor ∈ truthy prior, successor = row.goldId)
        (ContractViolation (goldPath i) "gold predecessor fork")
      checkForks (i + 1) ((predecessor, row.goldId) :: successors) rows

def checkAdjacent (all : List PortableGold) (i : Nat) (row : PortableGold) : Outcome Unit :=
  match row.predecessorGoldId.bind (goldOf all) with
  | none => .ok ()
  | some predecessor => do
    ensure (predecessor.experimentId = row.experimentId) (ContractViolation (goldPath i)
      "gold predecessor must belong to the same experiment")
    ensure (predecessor.version + 1 = row.version) (ContractViolation (goldPath i)
      "corrupt version chain: predecessor version must be adjacent")

def checkVersions (all : List PortableGold) : Nat → List (JsString × Nat) → List PortableGold →
    Outcome Unit
  | _, _, [] => .ok ()
  | i, seen, row :: rows => do
    ensure ((row.experimentId, row.version) ∉ seen)
      (ContractViolation (itemPath "$.gold" i ++ ".version")
        "corrupt version chain: duplicate version in experiment")
    checkAdjacent all i row
    checkVersions all (i + 1) ((row.experimentId, row.version) :: seen) rows

def validateGoldLineage (rows : List PortableGold) : Outcome Unit := do
  ensureAll (fun row => checkGoldRow rows row.2 row.1) rows.zipIdx
  uniqueIds "$.gold.goldId" (rows.map (·.goldId))
  ensureAll (fun row => ensure
    (ends (goldBefore rows) (rows.length + 1) [] (some row.1.goldId) = true)
    (ContractViolation (goldPath row.2) "cyclic gold predecessor lineage")) rows.zipIdx
  checkForks 0 [] rows
  checkVersions rows 0 [] rows

end ContextDesk
