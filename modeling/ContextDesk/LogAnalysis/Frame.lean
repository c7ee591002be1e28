import ContextDesk.Lib.Str

/-!
# Logical records over physical lines

`LogicalRecordFramer` joins physical lines into logical records: `pushLine` takes one physical line
and may complete a record, `finish` flushes the open one. Five modes decide what a line does to
the open record: a bound already exceeded, an open quote of a CSV field, an open CRI partial, an
open brace of pretty-printed JSON, and the content test `isContinuationOf`.

A text is a list of characters; a `PhysicalLine` has no line feed in it. `records` is a whole run:
one `pushLine` for each line, then `finish`.
-/

namespace ContextDesk.LogAnalysis

open Lib Lib.Text Lib.Str

namespace Framing

def maxLogicalRecordBytes : Nat := 1024 * 1024

def maxPhysicalLinesPerRecord : Nat := 5000

def maxJsonFramingDepth : Int32 := 64

/-- One line of a source, without its line feed. -/
structure PhysicalLine where
  text : List Char
  unbroken : '\n' ∉ text
  deriving DecidableEq

structure FramedRecord where
  text : List Char
  includesPushedLine : Bool
  truncated : Bool
  deriving DecidableEq

/-! ## Open quotes of a CSV record -/

structure CsvQuoteScanner where
  opened : Bool := false
  /-- Saw a quote while open; the next character decides. -/
  deferredClose : Bool := false
  deriving DecidableEq

namespace CsvQuoteScanner

def feed (s : CsvQuoteScanner) (ch : Char) : CsvQuoteScanner :=
  if s.deferredClose && ch == '"' then { s with deferredClose := false }
  else
    let s := if s.deferredClose then { opened := false, deferredClose := false } else s
    if ch == '"' then
      if s.opened then { s with deferredClose := true } else { s with opened := true }
    else s

def feedStr (s : CsvQuoteScanner) (text : List Char) : CsvQuoteScanner := text.foldl feed s

def isOpen (s : CsvQuoteScanner) : Bool := s.opened && !s.deferredClose

end CsvQuoteScanner

/-! ## Shapes of lines -/

def looksLikeMultilineJsonStart (line : List Char) : Bool :=
  let t := trim line
  t = ['{'] || (startsWith "\x7b" t && (t.drop 1).all isWhitespace)

def looksLikeCsvRecord (line : List Char) : Bool :=
  let t := trimStart line
  startsWith "\"" t && 3 ≤ t.count ','

/-- The timestamp, stream and tag of a CRI line. -/
def criLine (line : List Char) : Option (List Char × List Char × List Char) :=
  match splitn isWhitespace 4 line with
  | ts :: stream :: tag :: _ =>
    if !ts.contains 'T' || (stream ≠ "stdout".toList && stream ≠ "stderr".toList) then none
    else if tag ≠ "F".toList && tag ≠ "P".toList then none
    else some (ts, stream, tag)
  | _ => none

def criIsPartial (line : List Char) : Bool :=
  (criLine (trimStart line)).any fun (_, _, tag) => tag = "P".toList

def criIsFull (line : List Char) : Bool :=
  (criLine (trimStart line)).any fun (_, _, tag) => tag = "F".toList

/-- Four digits, then `sep` at the bytes 4 and 7, in a text of at least `least` bytes. -/
def datedWith (sep : UInt8) (least : Nat) (b : List UInt8) : Bool :=
  least ≤ b.length && b[4]? = some sep && b[7]? = some sep &&
    (b.take 4).all (fun d => 0x30 ≤ d && d ≤ 0x39)

def lineHasLeadingTimestamp (line : List Char) : Bool :=
  let t := trimStart line
  datedWith 0x2D 19 (bytes t) || datedWith 0x2F 10 (bytes t) || (criLine t).isSome

def matchesPgSecondary (rest : List Char) : Bool :=
  let u := asciiUpper rest
  startsWith "DETAIL:" u || startsWith "HINT:" u || startsWith "STATEMENT:" u ||
    startsWith "CONTEXT:" u || startsWith "QUERY:" u || startsWith "LOCATION:" u

/-- What follows `YYYY-MM-DD HH:MM:SS.mmm TZ [pid]`. -/
def stripPgPrefix (line : List Char) : Option (List Char) :=
  let b := bytes line
  if b.length < 30 || b[4]? ≠ some 0x2D then none
  else do
    let inBracket ← afterFirst '[' line
    let rest ← afterFirst ']' inBracket
    pure (trimStart rest)

def isPgContinuationTag (trimmed : List Char) : Bool :=
  match stripPgPrefix trimmed with
  | some rest => matchesPgSecondary rest
  | none => matchesPgSecondary trimmed

def pendingLooksLikePgStderr (pending : List Char) : Bool :=
  let last := (lines pending).getLast?.getD pending
  (stripPgPrefix last).any fun rest =>
    let u := asciiUpper rest
    startsWith "ERROR:" u || startsWith "FATAL:" u || startsWith "PANIC:" u ||
      startsWith "WARNING:" u || startsWith "LOG:" u || startsWith "INFO:" u ||
      startsWith "NOTICE:" u || startsWith "DEBUG" u || matchesPgSecondary rest

def pendingLooksLikeStack (pending : List Char) : Bool :=
  (lines pending).any fun l =>
    let t := trimStart l
    contains "Exception" t || contains "Error:" t || startsWith "Traceback" t ||
      startsWith "panic:" t || startsWith "thread '" t || startsWith "stack backtrace" t ||
      contains "panicked at" t || contains " ERROR " t || contains " [ERR] " t ||
      contains " ERROR:" t

def sqlStartsWithKeyword (value : List Char) (keywords : List String) : Bool :=
  let token := (trimStart value).takeWhile fun ch => !(isWhitespace ch || ch == '(' || ch == ';')
  keywords.any fun keyword => eqIgnoreAsciiCase token keyword.toList

def isSqlStatementStart (sql : List Char) : Bool :=
  sqlStartsWithKeyword sql
    ["SELECT", "WITH", "INSERT", "UPDATE", "DELETE", "MERGE", "CALL", "CREATE", "ALTER", "DROP",
      "TRUNCATE", "GRANT", "REVOKE"]

def isSqlClauseContinuation (line : List Char) : Bool :=
  sqlStartsWithKeyword line
    ["SELECT", "UNION", "INTERSECT", "EXCEPT", "WITH", "FROM", "WHERE", "JOIN", "INNER", "LEFT",
      "RIGHT", "FULL", "CROSS", "NATURAL", "ON", "AND", "OR", "GROUP", "ORDER", "HAVING",
      "WINDOW", "LIMIT", "OFFSET", "FETCH", "FOR", "VALUES", "SET", "RETURNING", "INTO", "WHEN",
      "ELSE", "END"]

/-- No letter, digit or underscore stands there. -/
def wordBoundary (c : Option Char) : Bool := !c.any fun c => c.isAlphanum || c == '_'

def findWord (haystack : List Char) (needle : List Char) : Option Nat :=
  (matchIndices needle 0 0 haystack).find? fun index =>
    wordBoundary (if index = 0 then none else haystack[index - 1]?) &&
      wordBoundary haystack[index + needle.length]?

def sqlAfterExplicitLead (line : List Char) : Option (List Char) :=
  let lower := asciiLower line
  let sending := do
    let index ← findWord lower "sending".toList
    let sql ← stripStart ':' (trimStart (line.drop (index + "sending".length)))
    pure (trimStart sql)
  match sending with
  | some sql => some sql
  | none => do
    let index ← findWord lower "statement".toList
    let rest := trimStart (line.drop (index + "statement".length))
    let rest ← match stripStart '(' rest with
      | some afterOpen => (afterFirst ')' afterOpen).map trimStart
      | none => some rest
    let sql ← stripStart ':' rest
    pure (trimStart sql)

def pendingLooksLikeExplicitSql (pending : List Char) : Bool :=
  let first := (lines pending).head?.getD pending
  lineHasLeadingTimestamp first && (sqlAfterExplicitLead first).any isSqlStatementStart

/-- Whether `line` continues the logical record begun by `pending`. -/
def isContinuationOf (pending line : List Char) : Bool :=
  let trimmed := trimStart line
  if isPgContinuationTag trimmed && pendingLooksLikePgStderr pending then true
  else if lineHasLeadingTimestamp line then false
  else if startsWith "panic:" trimmed && !pendingLooksLikeStack pending then false
  else if (lines pending).head?.any lineHasLeadingTimestamp then true
  else if pendingLooksLikeExplicitSql pending && isSqlClauseContinuation trimmed then true
  else if trimmed.isEmpty then pendingLooksLikeStack pending || pendingLooksLikePgStderr pending
  else pendingLooksLikeStack pending

end Framing

/-! ## The framer -/

open Framing in
structure LogicalRecordFramer where
  pending : List Char := []
  pendingLines : Nat := 0
  csv : CsvQuoteScanner := {}
  csvRecord : Bool := false
  /-- The previous line of a CRI stream was tagged partial. -/
  criPartialOpen : Bool := false
  jsonDepth : Int32 := 0
  jsonInString : Bool := false
  jsonEscape : Bool := false
  overBound : Bool := false
  deriving DecidableEq

namespace LogicalRecordFramer

open Framing

/-- The fields that track pretty-printed JSON, over one character. -/
def feedJson (s : LogicalRecordFramer) (ch : Char) : LogicalRecordFramer :=
  if s.jsonEscape then { s with jsonEscape := false }
  else if s.jsonInString then
    if ch == '\\' then { s with jsonEscape := true }
    else if ch == '"' then { s with jsonInString := false }
    else s
  else if ch == '"' then { s with jsonInString := true }
  else if ch == '{' then { s with jsonDepth := s.jsonDepth + 1 }
  else if ch == '}' && s.jsonDepth > 0 then { s with jsonDepth := s.jsonDepth - 1 }
  else s

def feedJsonLine (s : LogicalRecordFramer) (line : List Char) : LogicalRecordFramer :=
  line.foldl feedJson s

def takePending (s : LogicalRecordFramer) (includesPushedLine truncated : Bool) :
    LogicalRecordFramer × Option FramedRecord :=
  if s.pending = [] then (s, none)
  else
    ({ s with pending := [], pendingLines := 0 },
      some ⟨s.pending, includesPushedLine, truncated⟩)

def startNew (s : LogicalRecordFramer) (line : List Char) : LogicalRecordFramer :=
  let s :=
    { s with
      pending := line
      pendingLines := 1
      overBound := false
      csv := if looksLikeCsvRecord line then ({} : CsvQuoteScanner).feedStr line else {}
      csvRecord := looksLikeCsvRecord line
      criPartialOpen := criIsPartial line
      jsonDepth := 0
      jsonInString := false
      jsonEscape := false }
  if looksLikeMultilineJsonStart line then s.feedJsonLine line else s

/-- What `append_line` feeds to the quote scanner: the line, after the line feed that joins it. -/
def joined (s : LogicalRecordFramer) (line : List Char) : List Char :=
  if s.pending = [] then line else '\n' :: line

def appendLine (s : LogicalRecordFramer) (line : List Char) : LogicalRecordFramer :=
  { s with
    pending := s.pending ++ s.joined line
    pendingLines := s.pendingLines + 1
    csv := if s.csvRecord then s.csv.feedStr (s.joined line) else s.csv }

/-- The open record is not closed in the middle of a line: it is marked, and closed at the next
push or at the end. -/
def closeIfOverBoundIncluding (s : LogicalRecordFramer) : LogicalRecordFramer :=
  if (bytes s.pending).length > maxLogicalRecordBytes ||
      s.pendingLines > maxPhysicalLinesPerRecord || s.jsonDepth > maxJsonFramingDepth then
    { s with overBound := true }
  else s

def strippedLine (physical : PhysicalLine) : List Char :=
  (stripEnd '\r' physical.text).getD physical.text

def pushLine (s : LogicalRecordFramer) (physical : PhysicalLine) :
    LogicalRecordFramer × Option FramedRecord :=
  let line := strippedLine physical
  if s.overBound then
    let finished := s.takePending false true
    (finished.1.startNew line, finished.2)
  else if s.csv.isOpen then
    let s := s.appendLine line
    if !s.csv.isOpen then s.takePending true false
    else (s.closeIfOverBoundIncluding, none)
  else if s.criPartialOpen then
    let s := s.appendLine line
    if criIsFull line then { s with criPartialOpen := false }.takePending true false
    else (s.closeIfOverBoundIncluding, none)
  else if s.jsonDepth > 0 then
    let s := (s.appendLine line).feedJsonLine line
    if s.jsonDepth = 0 then s.takePending true false
    else (s.closeIfOverBoundIncluding, none)
  else if s.pending = [] then (s.startNew line, none)
  else if isContinuationOf s.pending line then
    ((s.appendLine line).closeIfOverBoundIncluding, none)
  else
    let finished := s.takePending false false
    (finished.1.startNew line, finished.2)

def finish (s : LogicalRecordFramer) : LogicalRecordFramer × Option FramedRecord :=
  { s with
    csv := {}
    csvRecord := false
    criPartialOpen := false
    jsonDepth := 0
    jsonInString := false
    jsonEscape := false
    overBound := false }.takePending false s.overBound

def pushLines (s : LogicalRecordFramer) : List PhysicalLine → LogicalRecordFramer
  | [] => s
  | line :: lines => (s.pushLine line).1.pushLines lines

/-- The records completed while the lines are pushed. -/
def completed (s : LogicalRecordFramer) : List PhysicalLine → List FramedRecord
  | [] => []
  | line :: lines => (s.pushLine line).2.toList ++ (s.pushLine line).1.completed lines

/-- The records of a whole run: those completed by the pushes, and the one `finish` flushes. -/
def records (s : LogicalRecordFramer) (lines : List PhysicalLine) : List FramedRecord :=
  s.completed lines ++ (s.pushLines lines).finish.2.toList

variable (s : LogicalRecordFramer)

@[simp] theorem pushLines_nil : s.pushLines [] = s := rfl

@[simp] theorem pushLines_cons (line : PhysicalLine) (lines : List PhysicalLine) :
    s.pushLines (line :: lines) = (s.pushLine line).1.pushLines lines := rfl

theorem pushLines_append (a b : List PhysicalLine) :
    s.pushLines (a ++ b) = (s.pushLines a).pushLines b := by
  induction a generalizing s with
  | nil => rfl
  | cons line a ih => exact ih _

@[simp] theorem completed_nil : s.completed [] = [] := rfl

@[simp] theorem completed_cons (line : PhysicalLine) (lines : List PhysicalLine) :
    s.completed (line :: lines) =
      (s.pushLine line).2.toList ++ (s.pushLine line).1.completed lines := rfl

theorem completed_append (a b : List PhysicalLine) :
    s.completed (a ++ b) = s.completed a ++ (s.pushLines a).completed b := by
  induction a generalizing s with
  | nil => rfl
  | cons line a ih => simp [ih]

theorem records_append (a b : List PhysicalLine) :
    s.records (a ++ b) = s.completed a ++ (s.pushLines a).records b := by
  unfold records
  rw [completed_append, pushLines_append, List.append_assoc]

end LogicalRecordFramer

end ContextDesk.LogAnalysis
