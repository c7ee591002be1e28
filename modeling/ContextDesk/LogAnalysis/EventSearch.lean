import ContextDesk.Lib.ByteIndex
import ContextDesk.LogAnalysis.Query

/-!
# Literal search

`searchEventsAdvanced` is the search for a text that is neither semantic, nor a regular expression,
nor case-sensitive: one page of events whose message matches `%text%`, scored again by the words of
the text. Events without a word are dropped, and a full page alone is called partial and carries a
cursor. `char::is_alphanumeric` is a parameter.
-/

namespace ContextDesk.LogAnalysis

open Lib

def maxSearchPatternLen : Nat := 256

def maxSearchExcerptLen : Nat := 160

/-- `char::is_alphanumeric`. -/
structure Alphanumeric where
  isAlphanumeric : Char → Bool
  /-- The characters of a `LIKE` pattern are punctuation. -/
  wild : ∀ c, Sql.isWild c = true → isAlphanumeric c = false

structure EventSearchQuery where
  query : Option String
  filter : EventQuery
  k : Nat
  deriving DecidableEq

structure EventSearchHit where
  event : ExplorerEvent
  /-- The fraction of the words that were found. -/
  score : ℚ
  matchKind : String
  templateId : Option UInt64
  excerpt : Option (List Char)
  deriving DecidableEq

structure EventSearchResult where
  hits : List EventSearchHit
  nextCursor : Option UInt64
  nextTs : Option Int
  totalMatched : Option Nat
  isPartial : Bool
  diagnostic : Option String
  cancelled : Bool
  scanned : Nat
  deriving DecidableEq

/-! ## Excerpts -/

def charIndices : Nat → List Char → List Nat
  | _, [] => []
  | i, c :: l => i :: charIndices (i + c.utf8Size) l

def excerptAround (message : List Char) (start stop : Nat) : List Char :=
  let len := ByteIndex.byteLen message
  let start := min start len
  let stop := max (min stop len) start
  let fromByte := start - 40
  let toByte := min (stop + 40) len
  let indices := charIndices 0 message
  -- the last character at or before `fromByte`, and the first at or behind `toByte`
  let fromI := (indices.takeWhile (· ≤ fromByte)).length - 1
  let toI := (indices.takeWhile (· < toByte)).length
  let slice := (message.drop fromI).take (toI - fromI)
  let s := (if 0 < fromI then ['…'] else []) ++ slice ++ (if toI < message.length then ['…'] else [])
  if s.length > maxSearchExcerptLen then s.take maxSearchExcerptLen ++ ['…'] else s

/-! ## Scores -/

variable (lc : Lowercase) (alnum : Alphanumeric)

/-- The words of a text, of more than one byte. -/
def searchTokens (kwL : List Char) : List (List Char) :=
  (kwL.splitOnP fun c => !alnum.isAlphanumeric c).filter fun t => 1 < ByteIndex.byteLen t

def keywordScore (kwL msgL : List Char) : ℚ :=
  let tokens := searchTokens alnum kwL
  if tokens.isEmpty then (if kwL <:+: msgL then 1 else 0)
  else (tokens.countP fun t => t <:+: msgL : ℚ) / tokens.length

def keywordHit (pattern : List Char) (e : ExplorerEvent) : EventSearchHit :=
  let kwL := lc.lower pattern
  let msgL := lc.lower e.message.toList
  { event := e
    score := keywordScore alnum kwL msgL
    matchKind := "keyword"
    templateId := some e.templateId
    excerpt := (ByteIndex.find (String.ofList kwL) msgL).map fun idx =>
      excerptAround e.message.toList idx (idx + ByteIndex.byteLen pattern) }

/-- An event without a score, or one that is there already, adds nothing. -/
def pushHit (pattern : List Char) (hits : List EventSearchHit) (e : ExplorerEvent) :
    List EventSearchHit :=
  let hit := keywordHit lc alnum pattern e
  if hit.score ≤ 0 then hits
  else if hits.any (fun h => h.event.seq == e.seq) then hits
  else hits ++ [hit]

/-! ## One search -/

def resultCap (k : Nat) : Nat := if k = 0 then 50 else max 1 (min k maxEventPage)

def hitLe (a b : EventSearchHit) : Bool :=
  a.event.ts < b.event.ts ∨ (a.event.ts = b.event.ts ∧ a.event.seq ≤ b.event.seq)

def EventSearchResult.nothing : EventSearchResult where
  hits := []
  nextCursor := none
  nextTs := none
  totalMatched := none
  isPartial := false
  diagnostic := none
  cancelled := false
  scanned := 0

def resultOfPage (pattern : List Char) (k : Nat) (events : List ExplorerEvent) (total : Nat) :
    EventSearchResult :=
  let found := events.foldl (pushHit lc alnum pattern) []
  let isPartial := decide (k ≤ found.length)
  let hits := (found.insertionSort fun a b => hitLe a b = true).take k
  { hits := hits
    nextCursor := if isPartial then hits.getLast?.map fun h => h.event.seq else none
    nextTs := if isPartial then hits.getLast?.map fun h => h.event.ts else none
    totalMatched := some total
    isPartial := isPartial
    diagnostic := if isPartial then some s!"result cap reached ({k})" else none
    cancelled := false
    scanned := events.length }

def searchEventsAdvanced (corpusQuality : TimeQuality) (events : List EventRow)
    (q : EventSearchQuery) : CoreResult EventSearchResult :=
  let k := resultCap q.k
  match q.query with
  | none => .ok .nothing
  | some raw =>
    let pattern := Text.trim raw.toList
    if pattern = [] then .ok .nothing
    else if ByteIndex.byteLen pattern > maxSearchPatternLen then
      .ok { EventSearchResult.nothing with
        totalMatched := some 0
        diagnostic := some s!"pattern exceeds max length ({maxSearchPatternLen} characters)" }
    else do
      let fq := { q.filter with limit := k }
      let page ← queryEventRows lc fq (some (String.ofList pattern)) corpusQuality events
      let clauses ← buildWhereWithAdditionalKeyword lc fq (some (String.ofList pattern))
      pure (resultOfPage lc alnum pattern k page.events (events.countP (satisfies lc clauses)))

/-! ## Following the cursors -/

/-- A search from the start: no cursor in its filter. -/
def firstSearch (f : EventQuery) (raw : String) (k : Nat) : EventSearchQuery where
  query := some raw
  filter := { f with afterSeq := none, afterTs := none, beforeSeq := none, beforeTs := none }
  k := k

/-- `next_cursor` and `next_ts` passed as `after_seq` and `after_ts` of the filter. -/
def nextSearch (q : EventSearchQuery) (r : EventSearchResult) : EventSearchQuery :=
  { q with filter := { q.filter with afterSeq := r.nextCursor, afterTs := r.nextTs } }

/-- The results from a search on, while a cursor is present. -/
def followSearch (search : EventSearchQuery → CoreResult EventSearchResult) :
    Nat → EventSearchQuery → CoreResult (List EventSearchResult)
  | 0, _ => .error "more pages than asked for"
  | fuel + 1, q => do
    let r ← search q
    if r.nextCursor.isSome && r.nextTs.isSome then do
      let rest ← followSearch search fuel (nextSearch q r)
      pure (r :: rest)
    else pure [r]

end ContextDesk.LogAnalysis
