import ContextDesk.Lib.Sql
import ContextDesk.Lib.Text
import ContextDesk.LogAnalysis.Event

/-!
# Event queries

An `EventQuery` is a filter and a page request. `buildWhere` turns the filter into the conditions
of a `WHERE` clause, `eventMatchesFilter` is the same filter as a predicate on one decoded event.
`queryEventRows` fetches one page by keyset: forward pages in ascending order after a cursor,
reverse pages in descending order before one, each with a look-ahead row. `queryEventNeighborhood`
finds an event by its sequence and fetches the pages around it.

Case folding is a parameter: `Lowercase` is a lower-casing that leaves the characters of a `LIKE`
pattern and the white space around a text alone, as Unicode lower-casing does.
-/

namespace ContextDesk.LogAnalysis

open Lib

def maxEventPage : Nat := 500

def defaultEventPage : Nat := 100

def maxExcludedTemplateIds : Nat := 256

def maxNeighborhoodRadius : Nat := 200

def blankWild (c : Char) : Char := if Sql.isWild c then '!' else c

/-- `str::to_lowercase`, and `lower` of the database. -/
structure Lowercase where
  lower : List Char → List Char
  /-- `%`, `_` and `!` have no case, and no letter becomes one of them. -/
  lower_blank : ∀ s, lower (s.map blankWild) = (lower s).map blankWild
  wild_mem : ∀ s c, Sql.isWild c = true → c ∈ s → c ∈ lower s
  /-- White space has no case. -/
  lower_trim : ∀ s, Text.trim s ≠ s → (lower (Text.trim s)).length < (lower s).length

inductive TimeQuality where
  | wall
  | mixed
  | orderOnly
  deriving DecidableEq

def classifyActiveTimestampBasis (basis : ActiveTimestampBasis) : TimeQuality :=
  if basis.isWallClock then .wall else .orderOnly

structure EventQuery where
  timeFrom : Option Int
  timeTo : Option Int
  seqFrom : Option UInt64
  seqTo : Option UInt64
  levels : List String
  sources : List String
  services : List String
  hosts : List String
  templateId : Option UInt64
  templateIds : List UInt64
  excludedTemplateIds : List UInt64
  traceId : Option String
  keyword : Option String
  wallTimeOnly : Bool
  afterSeq : Option UInt64
  afterTs : Option Int
  beforeSeq : Option UInt64
  beforeTs : Option Int
  limit : Nat
  sortByTime : Bool
  deriving DecidableEq

/-- `EventQuery::default()`. -/
def EventQuery.default : EventQuery where
  timeFrom := none
  timeTo := none
  seqFrom := none
  seqTo := none
  levels := []
  sources := []
  services := []
  hosts := []
  templateId := none
  templateIds := []
  excludedTemplateIds := []
  traceId := none
  keyword := none
  wallTimeOnly := false
  afterSeq := none
  afterTs := none
  beforeSeq := none
  beforeTs := none
  limit := 0
  sortByTime := true

structure ExplorerEvent where
  seq : UInt64
  ts : Int
  timestampProvenance : TimestampProvenance
  activeTimestampBasis : ActiveTimestampBasis
  unresolvedLocalTimestamp : Option String
  timeQuality : TimeQuality
  level : String
  service : Option String
  host : Option String
  templateId : UInt64
  traceId : Option String
  message : String
  source : String
  deriving DecidableEq

def ExplorerEvent.ofEvent (e : LogEvent) : ExplorerEvent where
  seq := e.seq
  ts := e.ts
  timestampProvenance := e.timestampProvenance
  activeTimestampBasis := e.activeTimestampBasis
  unresolvedLocalTimestamp := e.unresolvedLocalTimestamp
  timeQuality := classifyActiveTimestampBasis e.activeTimestampBasis
  level := e.level
  service := e.service
  host := e.host
  templateId := e.templateId
  traceId := e.traceId
  message := e.message
  source := e.source

def mapEvent (r : EventRow) : CoreResult ExplorerEvent := do
  let seq ← require (tryU64 r.seq) "event sequence is negative"
  let templateId ← require (tryU64 r.templateId) "event template id is negative"
  let event : LogEvent :=
    { seq := seq
      ts := r.ts
      timestampProvenance := r.timestampProvenance.getD .legacyUnknown
      activeTimestampBasis := r.activeTimestampBasis.getD .legacyUnknown
      unresolvedLocalTimestamp := r.unresolvedLocalTimestamp
      level := r.level
      service := r.service
      host := r.host
      templateId := templateId
      params := r.params
      traceId := r.traceId
      message := r.message
      source := r.source }
  event.validateTimestampProvenance
  pure (.ofEvent event)

/-! ## The filter as SQL -/

/-- One condition on a row, with its bound values. -/
inductive Clause where
  /-- `ts >= ?` -/
  | tsAtLeast (value : Int)
  /-- `ts < ?` -/
  | tsBefore (value : Int)
  /-- `seq >= ?` -/
  | seqAtLeast (value : Int)
  /-- `seq <= ?` -/
  | seqAtMost (value : Int)
  /-- `template_id = ?` -/
  | templateIs (value : Int)
  /-- `template_id IN (..)` -/
  | templateIn (values : List Int)
  /-- `template_id NOT IN (..)` -/
  | templateNotIn (values : List Int)
  /-- `level IN (..)` -/
  | levelIn (values : List String)
  /-- `source IN (..)` -/
  | sourceIn (values : List String)
  /-- `COALESCE(service, '') IN (..)` -/
  | serviceIn (values : List String)
  /-- `COALESCE(host, '') IN (..)` -/
  | hostIn (values : List String)
  /-- `trace_id = ?` -/
  | traceIs (value : String)
  /-- `lower(message) LIKE ?` -/
  | messageLike (pattern : List Char)
  /-- `active_timestamp_basis IN (..)` -/
  | basisIn (values : List ActiveTimestampBasis)
  /-- `(ts > ? OR (ts = ? AND seq > ?))` -/
  | afterKey (ts seq : Int)
  /-- `(ts < ? OR (ts = ? AND seq < ?))` -/
  | beforeKey (ts seq : Int)
  /-- `seq > ?` -/
  | seqAfter (value : Int)
  /-- `seq < ?` -/
  | seqBefore (value : Int)
  deriving DecidableEq

def Clause.truth (lc : Lowercase) (r : EventRow) : Clause → Sql.Truth
  | tsAtLeast value => some (value ≤ r.ts)
  | tsBefore value => some (r.ts < value)
  | seqAtLeast value => some (value ≤ r.seq)
  | seqAtMost value => some (r.seq ≤ value)
  | templateIs value => Sql.eq (some r.templateId) value
  | templateIn values => Sql.isIn (some r.templateId) values
  | templateNotIn values => Sql.notIn (some r.templateId) values
  | levelIn values => Sql.isIn (some r.level) values
  | sourceIn values => Sql.isIn (some r.source) values
  | serviceIn values => Sql.isIn (some (r.service.getD "")) values
  | hostIn values => Sql.isIn (some (r.host.getD "")) values
  | traceIs value => Sql.eq r.traceId value
  | messageLike pattern => some (Sql.like pattern (lc.lower r.message.toList))
  | basisIn values => Sql.isIn r.activeTimestampBasis values
  | afterKey ts seq => some (ts < r.ts ∨ (r.ts = ts ∧ seq < r.seq))
  | beforeKey ts seq => some (r.ts < ts ∨ (r.ts = ts ∧ r.seq < seq))
  | seqAfter value => some (value < r.seq)
  | seqBefore value => some (r.seq < value)

def satisfies (lc : Lowercase) (clauses : List Clause) (r : EventRow) : Bool :=
  Sql.allTrue (clauses.map (Clause.truth lc r))

/-- A condition that a list adds when it is not empty. -/
def clauseUnlessEmpty {α : Type} (l : List α) (c : Clause) : List Clause :=
  if l.isEmpty then [] else [c]

/-- `%keyword%` in lower case, when the keyword is not blank. -/
def keywordClause (lc : Lowercase) (keyword : Option String) : List Clause :=
  match keyword with
  | none => []
  | some keyword =>
    if Text.trim keyword.toList = [] then []
    else [.messageLike ('%' :: lc.lower keyword.toList ++ ['%'])]

def buildWhere (lc : Lowercase) (q : EventQuery) : CoreResult (List Clause) := do
  ensure (q.excludedTemplateIds.length ≤ maxExcludedTemplateIds)
    s!"excluded template count {q.excludedTemplateIds.length} exceeds maximum {maxExcludedTemplateIds}"
  let excluded ← collect
    (fun id : UInt64 => do
      ensure (id.toNat ≤ i64Max) "excluded template id exceeds signed storage range"
      pure (id.toNat : Int))
    ((q.excludedTemplateIds.dedup).insertionSort (· ≤ ·))
  pure
    (q.timeFrom.toList.map .tsAtLeast ++ q.timeTo.toList.map .tsBefore ++
      q.seqFrom.toList.map (fun lo => .seqAtLeast (asI64 lo)) ++
      q.seqTo.toList.map (fun hi => .seqAtMost (asI64 hi)) ++
      q.templateId.toList.map (fun id => .templateIs (asI64 id)) ++
      clauseUnlessEmpty q.templateIds (.templateIn (q.templateIds.map asI64)) ++
      clauseUnlessEmpty q.excludedTemplateIds (.templateNotIn excluded) ++
      clauseUnlessEmpty q.levels (.levelIn q.levels) ++
      clauseUnlessEmpty q.sources (.sourceIn q.sources) ++
      clauseUnlessEmpty q.services (.serviceIn q.services) ++
      clauseUnlessEmpty q.hosts (.hostIn q.hosts) ++
      q.traceId.toList.map .traceIs ++
      keywordClause lc q.keyword ++
      if q.wallTimeOnly then [.basisIn [.explicitWall, .resolvedLocal]] else [])

/-- Advanced Find intersects its own keyword, trimmed. -/
def buildWhereWithAdditionalKeyword (lc : Lowercase) (q : EventQuery)
    (additionalKeyword : Option String) : CoreResult (List Clause) := do
  let clauses ← buildWhere lc q
  match additionalKeyword with
  | none => pure clauses
  | some keyword =>
    let keyword := Text.trim keyword.toList
    if keyword = [] then pure clauses
    else pure (clauses ++ [.messageLike ('%' :: lc.lower keyword ++ ['%'])])

/-! ## The filter as a predicate -/

def eventMatchesFilter (lc : Lowercase) (event : ExplorerEvent) (filter : EventQuery) : Bool :=
  filter.timeFrom.all (fun lo => !(event.ts < lo)) &&
  filter.timeTo.all (fun hi => !(event.ts ≥ hi)) &&
  filter.seqFrom.all (fun lo => !(event.seq < lo)) &&
  filter.seqTo.all (fun hi => !(event.seq > hi)) &&
  filter.templateId.all (fun id => event.templateId == id) &&
  (filter.templateIds.isEmpty || filter.templateIds.contains event.templateId) &&
  !filter.excludedTemplateIds.contains event.templateId &&
  (filter.levels.isEmpty || filter.levels.any fun level =>
    Text.eqIgnoreAsciiCase level.toList (Text.asciiLower event.level.toList)) &&
  (filter.sources.isEmpty || filter.sources.contains event.source) &&
  (filter.services.isEmpty || filter.services.contains (event.service.getD "")) &&
  (filter.hosts.isEmpty || filter.hosts.contains (event.host.getD "")) &&
  filter.traceId.all (fun id => event.traceId == some id) &&
  filter.keyword.all (fun keyword =>
    let keyword := Text.trim keyword.toList
    keyword.isEmpty || decide (lc.lower keyword <:+: lc.lower event.message.toList)) &&
  (!filter.wallTimeOnly || classifyActiveTimestampBasis event.activeTimestampBasis == .wall)

/-! ## Pages -/

structure EventRowsPage where
  events : List ExplorerEvent
  nextCursor : Option UInt64
  nextTs : Option Int
  prevCursor : Option UInt64
  prevTs : Option Int
  timeQuality : TimeQuality
  deriving DecidableEq

/-- `ts ASC, seq ASC`, or `seq ASC`. -/
def rowLe (sortByTime : Bool) (a b : EventRow) : Bool :=
  if sortByTime then a.ts < b.ts ∨ (a.ts = b.ts ∧ a.seq ≤ b.seq) else a.seq ≤ b.seq

/-- `SELECT .. FROM events WHERE .. ORDER BY .. LIMIT ..`. -/
def selectRows (lc : Lowercase) (clauses : List Clause) (sortByTime descending : Bool)
    (limit : Nat) (events : List EventRow) : List EventRow :=
  ((events.filter (satisfies lc clauses)).insertionSort fun a b =>
    if descending then rowLe sortByTime b a else rowLe sortByTime a b).take limit

def cursorClauses (q : EventQuery) : CoreResult (List Clause) :=
  if q.sortByTime then do
    ensure (¬ (q.afterSeq.isSome ∧ q.afterTs.isNone))
      ("time-sorted query requires after_ts with after_seq (composite keyset); " ++
        "seq-only cursor is refused to prevent silent row drops")
    ensure (¬ (q.beforeSeq.isSome ∧ q.beforeTs.isNone))
      "time-sorted query requires before_ts with before_seq (composite keyset)"
    let after :=
      match q.afterTs, q.afterSeq with
      | some ts, some seq => [Clause.afterKey ts (asI64 seq)]
      | _, _ => []
    let before :=
      match q.beforeTs, q.beforeSeq with
      | some ts, some seq => [Clause.beforeKey ts (asI64 seq)]
      | _, _ => []
    pure (after ++ before)
  else
    pure (q.afterSeq.toList.map (fun seq => .seqAfter (asI64 seq)) ++
      q.beforeSeq.toList.map fun seq => .seqBefore (asI64 seq))

def summarizeEventQuality (events : List ExplorerEvent) : TimeQuality :=
  let wall := events.countP fun e => e.timeQuality == .wall
  if wall = events.length then .wall else if wall = 0 then .orderOnly else .mixed

def pageLimit (q : EventQuery) : Nat :=
  if q.limit = 0 then defaultEventPage else max 1 (min q.limit maxEventPage)

/-- Only a `before` cursor: the window that ends before it. -/
def isReversePage (q : EventQuery) : Bool := q.beforeSeq.isSome && q.afterSeq.isNone

/-- The page made of the fetched rows, the look-ahead row among them. -/
def pageOfFetched (q : EventQuery) (corpusQuality : TimeQuality) (fetched : List ExplorerEvent) :
    EventRowsPage :=
  let limit := pageLimit q
  let hasMore := fetched.length > limit
  let events :=
    if isReversePage q then
      if hasMore then fetched.reverse.tail else fetched.reverse
    else if hasMore then fetched.take limit
    else fetched
  let newerAvailable :=
    if isReversePage q then q.beforeSeq.isSome && !events.isEmpty else decide hasMore
  let olderAvailable :=
    if isReversePage q then decide hasMore else q.afterSeq.isSome && !events.isEmpty
  { events := events
    nextCursor := if newerAvailable then events.getLast?.map ExplorerEvent.seq else none
    nextTs :=
      if newerAvailable && q.sortByTime then events.getLast?.map ExplorerEvent.ts else none
    prevCursor := if olderAvailable then events.head?.map ExplorerEvent.seq else none
    prevTs := if olderAvailable && q.sortByTime then events.head?.map ExplorerEvent.ts else none
    timeQuality := if events.isEmpty then corpusQuality else summarizeEventQuality events }

def queryEventRows (lc : Lowercase) (q : EventQuery) (additionalKeyword : Option String)
    (corpusQuality : TimeQuality) (events : List EventRow) : CoreResult EventRowsPage := do
  let clauses ← buildWhereWithAdditionalKeyword lc q additionalKeyword
  let cursors ← cursorClauses q
  let fetched ← collect mapEvent
    (selectRows lc (clauses ++ cursors) q.sortByTime (isReversePage q) (pageLimit q + 1) events)
  pure (pageOfFetched q corpusQuality fetched)

def countMatched (lc : Lowercase) (filter : EventQuery) (events : List EventRow) :
    CoreResult Nat := do
  let clauses ← buildWhere lc filter
  pure (events.countP (satisfies lc clauses))

/-! ## Neighborhoods -/

inductive TargetResolveStatus where
  | found
  | hiddenByFilter
  | missing
  deriving DecidableEq

structure EventNeighborhoodQuery where
  targetSeq : UInt64
  before : Nat
  after : Nat
  filter : EventQuery
  sortByTime : Bool
  deriving DecidableEq

structure EventNeighborhood where
  status : TargetResolveStatus
  target : Option ExplorerEvent
  events : List ExplorerEvent
  targetIndex : Option Nat
  nextCursor : Option UInt64
  nextTs : Option Int
  prevCursor : Option UInt64
  prevTs : Option Int
  totalMatched : Nat
  corpusTotal : Nat
  timeQuality : TimeQuality
  deriving DecidableEq

/-- `SELECT .. FROM events WHERE seq = ? LIMIT 1`. -/
def fetchEventBySeq (seq : UInt64) (events : List EventRow) : CoreResult (Option ExplorerEvent) := do
  let rows ← collect mapEvent ((events.filter fun r => r.seq = asI64 seq).take 1)
  pure rows.getLast?

/-- A page request on one side of the target; no request for a radius of zero. -/
def sidePage (lc : Lowercase) (q : EventQuery) (radius : Nat) (corpusQuality : TimeQuality)
    (events : List EventRow) : CoreResult EventRowsPage :=
  if 0 < radius then queryEventRows lc q none corpusQuality events
  else
    .ok
      { events := []
        nextCursor := none
        nextTs := none
        prevCursor := none
        prevTs := none
        timeQuality := .orderOnly }

def queryEventNeighborhood (lc : Lowercase) (q : EventNeighborhoodQuery)
    (corpusQuality : TimeQuality) (events : List EventRow) : CoreResult EventNeighborhood := do
  let before := min q.before maxNeighborhoodRadius
  let after := min q.after maxNeighborhoodRadius
  let corpusTotal := events.length
  match ← fetchEventBySeq q.targetSeq events with
  | none =>
    pure
      { status := .missing, target := none, events := [], targetIndex := none
        nextCursor := none, nextTs := none, prevCursor := none, prevTs := none
        totalMatched := 0, corpusTotal := corpusTotal, timeQuality := corpusQuality }
  | some target =>
    let filter := { q.filter with sortByTime := q.sortByTime }
    if !eventMatchesFilter lc target filter then do
      let totalMatched ← countMatched lc filter events
      pure
        { status := .hiddenByFilter, target := some target, events := [], targetIndex := none
          nextCursor := none, nextTs := none, prevCursor := none, prevTs := none
          totalMatched := totalMatched, corpusTotal := corpusTotal, timeQuality := corpusQuality }
    else do
      let cursorTs := if q.sortByTime then some target.ts else none
      let older ← sidePage lc
        { filter with
          beforeSeq := some target.seq, beforeTs := cursorTs, afterSeq := none, afterTs := none
          limit := before } before corpusQuality events
      let newer ← sidePage lc
        { filter with
          afterSeq := some target.seq, afterTs := cursorTs, beforeSeq := none, beforeTs := none
          limit := after } after corpusQuality events
      let (prevCursor, prevTs) :=
        if older.prevCursor.isSome then (older.prevCursor, older.prevTs)
        else if !older.events.isEmpty && older.events.length == before then
          (older.events.head?.map ExplorerEvent.seq,
            if q.sortByTime then older.events.head?.map ExplorerEvent.ts else none)
        else (none, none)
      let window := older.events ++ target :: newer.events
      let totalMatched ← countMatched lc filter events
      pure
        { status := .found, target := some target, events := window
          targetIndex := some older.events.length
          nextCursor := newer.nextCursor, nextTs := newer.nextTs
          prevCursor := prevCursor, prevTs := prevTs
          totalMatched := totalMatched, corpusTotal := corpusTotal
          timeQuality := summarizeEventQuality window }

end ContextDesk.LogAnalysis
