import ContextDesk.Lib.RecencyCache
import ContextDesk.Lib.Wire
import ContextDesk.LogAnalysis.CorpusClock
import ContextDesk.LogAnalysis.QueryFilter

/-!
# Counting events

The exact count of a filter is cached by the open handle that asked, under a digest of the `WHERE`
clause and its bound values (`eventCountCacheKey`) and with the revision it belongs to. A call
probes the cache before it has the connection and once more with it, counts, and stores the count
before it gives the connection back.

`CountStage.next` and its companions split a call at each of its readings. `CountingSystem` is any
number of such calls, over any number of handles, among writes that commit and publish.
-/

namespace ContextDesk.LogAnalysis

open Lib
open Lib.Utf8 (textBytes)

def eventCountCacheCap : Nat := 64

/-! ## The clause as text -/

inductive Value where
  | bigInt (value : Int)
  | text (value : String)
  deriving DecidableEq

/-- `?,?,..,?` -/
def placeholders : Nat → List Char
  | 0 => []
  | 1 => ['?']
  | n + 2 => '?' :: ',' :: placeholders (n + 1)

/-- A list of placeholders behind the name of a column. -/
def inList (column : String) (n : Nat) : List Char :=
  column.toList ++ '(' :: placeholders n ++ [')']

def ActiveTimestampBasis.asStorageStr : ActiveTimestampBasis → String
  | explicitWall => "explicit_wall"
  | resolvedLocal => "resolved_local"
  | orderOnly => "order_only"
  | legacyUnknown => "legacy_unknown"

def Clause.sql : Clause → List Char
  | tsAtLeast _ => "ts >= ?".toList
  | tsBefore _ => "ts < ?".toList
  | seqAtLeast _ => "seq >= ?".toList
  | seqAtMost _ => "seq <= ?".toList
  | templateIs _ => "template_id = ?".toList
  | templateIn values => inList "template_id IN " values.length
  | templateNotIn values => inList "template_id NOT IN " values.length
  | levelIn values => inList "level IN " values.length
  | sourceIn values => inList "source IN " values.length
  | serviceIn values => inList "COALESCE(service, '') IN " values.length
  | hostIn values => inList "COALESCE(host, '') IN " values.length
  | traceIs _ => "trace_id = ?".toList
  | messageLike _ => "lower(message) LIKE ?".toList
  | basisIn values =>
    "active_timestamp_basis IN (".toList ++
      ((values.map fun b => "'".toList ++ b.asStorageStr.toList ++ "'".toList).intersperse
        ", ".toList).flatten ++ [')']
  | afterKey _ _ => "(ts > ? OR (ts = ? AND seq > ?))".toList
  | beforeKey _ _ => "(ts < ? OR (ts = ? AND seq < ?))".toList
  | seqAfter _ => "seq > ?".toList
  | seqBefore _ => "seq < ?".toList

/-- The values of a condition, in the order of its placeholders. -/
def Clause.binds : Clause → List Value
  | tsAtLeast value | tsBefore value | seqAtLeast value | seqAtMost value | templateIs value
  | seqAfter value | seqBefore value => [.bigInt value]
  | templateIn values | templateNotIn values => values.map .bigInt
  | levelIn values | sourceIn values | serviceIn values | hostIn values => values.map .text
  | traceIs value => [.text value]
  | messageLike pattern => [.text (String.ofList pattern)]
  | basisIn _ => []
  | afterKey ts seq | beforeKey ts seq => [.bigInt ts, .bigInt ts, .bigInt seq]

/-- `1=1 AND .. AND ..` -/
def whereSql (clauses : List Clause) : String :=
  String.ofList ("1=1".toList ++ clauses.flatMap fun c => " AND ".toList ++ c.sql)

def whereBinds (clauses : List Clause) : List Value := clauses.flatMap Clause.binds

/-! ## The cache -/

structure EventCountCacheKey where
  digest : List UInt8
  deriving DecidableEq

def Value.bytes : Value → List UInt8
  | bigInt value => 0 :: beBytes 8 (value % 2 ^ 64).toNat
  | text value => 1 :: sized (beBytes 8) (textBytes value)

def eventCountCacheKey (sha256 : List UInt8 → List UInt8) (sql : String) (binds : List Value) :
    EventCountCacheKey :=
  ⟨sha256 (sized (beBytes 8) (textBytes sql) ++
    (beBytes 8 binds.length ++ binds.flatMap Value.bytes))⟩

structure CachedEventCount where
  revision : Nat
  count : Nat
  deriving DecidableEq

abbrev EventCountCache := RecencyCache EventCountCacheKey CachedEventCount

/-- The cached count of a revision. A count of another revision is dropped. -/
def EventCountCache.get (key : EventCountCacheKey) (revision : Nat) (c : EventCountCache) :
    Option Nat × EventCountCache :=
  match c.entries.lookup key with
  | none => (none, c)
  | some entry =>
    if entry.revision ≠ revision then (none, c.remove key)
    else (some entry.count, c.touch key)

/-! ## Calls -/

/-- A count that was asked for; its texts and values are those of the machine. -/
structure CountRequest (lc : Lowercase) where
  query : EventQuery
  additionalKeyword : Option String
  clauses : List Clause
  built : buildWhereWithAdditionalKeyword lc query additionalKeyword = .ok clauses
  sqlFits : (whereSql clauses).utf8ByteSize < 2 ^ 64
  countFits : (whereBinds clauses).length < 2 ^ 64
  integersFit : ∀ value, Value.bigInt value ∈ whereBinds clauses → -2 ^ 63 ≤ value ∧ value < 2 ^ 63
  textsFit : ∀ value, Value.text value ∈ whereBinds clauses → value.utf8ByteSize < 2 ^ 64

variable {lc : Lowercase}

def CountRequest.key (sha256 : List UInt8 → List UInt8) (r : CountRequest lc) :
    EventCountCacheKey :=
  eventCountCacheKey sha256 (whereSql r.clauses) (whereBinds r.clauses)

/-- `SELECT COUNT(*) FROM events WHERE ..` -/
def CountRequest.scan (r : CountRequest lc) (events : List EventRow) : Nat :=
  events.countP (satisfies lc r.clauses)

/-- How far a call has come. The stages from `locked` to `leaving` hold the connection. -/
inductive CountStage where
  | started
  /-- The revision is read from the clock. -/
  | observed (revision : Nat)
  /-- The clock still shows it. -/
  | probing (revision : Nat)
  /-- Nothing cached: the call waits for the connection. -/
  | waiting
  | locked (revision : Nat)
  | reprobing (revision : Nat)
  | scanning (revision : Nat)
  | scanned (revision count : Nat)
  | storing (revision count : Nat)
  | leaving (count : Nat)
  /-- The call returned the count at this time of the timeline. -/
  | returned (ended count : Nat)
  | failed
  deriving DecidableEq

structure CountCall (lc : Lowercase) where
  handle : Nat
  request : CountRequest lc
  /-- The time of the timeline when it started. -/
  began : Nat
  stage : CountStage

structure CountingSystem (lc : Lowercase) where
  corpus : SharedCorpus
  /-- The call that holds the connection. -/
  holder : Option Nat
  caches : Nat → EventCountCache
  calls : Nat → Option (CountCall lc)

def CountingSystem.now (s : CountingSystem lc) : Nat := s.corpus.timeline.length - 1

/-- The stored revision, or the clock where it cannot be read; the clock is never behind it. -/
def SharedCorpus.eventRevisionWithConnection (readable : Bool) (c : SharedCorpus) : Nat × Nat :=
  let revision := if readable then c.db.state.currentRevision else c.clock
  (max c.clock revision, max c.clock revision)

/-- The call `id` moves to another stage. -/
def CountingSystem.move (s : CountingSystem lc) (id : Nat) (call : CountCall lc)
    (stage : CountStage) : CountingSystem lc :=
  { s with calls := Function.update s.calls id (some { call with stage := stage }) }

/-- The call `id` probes the cache of its handle. -/
def CountingSystem.probe (s : CountingSystem lc) (sha256 : List UInt8 → List UInt8) (id : Nat)
    (call : CountCall lc) (revision : Nat) (hit : Nat → CountStage) (miss : CountStage) :
    CountingSystem lc :=
  let probed := EventCountCache.get (call.request.key sha256) revision (s.caches call.handle)
  { s with caches := Function.update s.caches call.handle probed.2 }.move id call
    (match probed.1 with
      | some count => hit count
      | none => miss)

/-- The next step of the call `id`. `readable` is whether the database answers, where the step
asks it. -/
def CountingSystem.step (s : CountingSystem lc) (sha256 : List UInt8 → List UInt8) (id : Nat)
    (readable : Bool) (call : CountCall lc) : CountingSystem lc :=
  match call.stage with
  | .started => s.move id call (.observed s.corpus.clock)
  | .observed revision =>
    s.move id call (if s.corpus.clock = revision then .probing revision else .waiting)
  | .probing revision => s.probe sha256 id call revision (.returned s.now) .waiting
  | .waiting =>
    if s.holder.isSome || s.corpus.committed then s
    else
      let (revision, clock) := s.corpus.eventRevisionWithConnection readable
      { s with holder := some id, corpus := { s.corpus with clock := clock } }.move id call
        (.locked revision)
  | .locked revision =>
    s.move id call (if s.corpus.clock = revision then .reprobing revision else .scanning revision)
  | .reprobing revision => s.probe sha256 id call revision .leaving (.scanning revision)
  | .scanning revision =>
    if readable then
      s.move id call (.scanned revision (call.request.scan s.corpus.db.events))
    else { s with holder := none }.move id call .failed
  | .scanned revision count =>
    s.move id call (if s.corpus.clock = revision then .storing revision count else .leaving count)
  | .storing revision count =>
    { s with
      caches := Function.update s.caches call.handle ((s.caches call.handle).insert
        eventCountCacheCap (call.request.key sha256) ⟨revision, count⟩) }.move id call
      (.leaving count)
  | .leaving count => { s with holder := none }.move id call (.returned s.now count)
  | .returned _ _ | .failed => s

inductive CountAction (lc : Lowercase) where
  | start (id handle : Nat) (request : CountRequest lc)
  | step (id : Nat) (readable : Bool)
  | commit (op : RevisionOp)
  | publish
  /-- A handle empties its cache, as the one that published does. -/
  | clear (handle : Nat)

def CountAction.apply (sha256 : List UInt8 → List UInt8) (s : CountingSystem lc) :
    CountAction lc → CountingSystem lc
  | start id handle request =>
    match s.calls id with
    | some _ => s
    | none =>
      { s with calls := Function.update s.calls id (some ⟨handle, request, s.now, .started⟩) }
  | step id readable =>
    match s.calls id with
    | some call => s.step sha256 id readable call
    | none => s
  | commit op => if s.holder.isSome then s else { s with corpus := s.corpus.commit op }
  | publish => { s with corpus := s.corpus.publish }
  | clear handle => { s with caches := Function.update s.caches handle .empty }

def CountingSystem.opened (lc : Lowercase) (db : CorpusDb) : CountingSystem lc where
  corpus := .opened db
  holder := none
  caches _ := .empty
  calls _ := none

/-- The system after an interleaving of actions. -/
def CountingSystem.run (sha256 : List UInt8 → List UInt8) (s : CountingSystem lc)
    (actions : List (CountAction lc)) : CountingSystem lc :=
  actions.foldl (fun s action => action.apply sha256 s) s

end ContextDesk.LogAnalysis
