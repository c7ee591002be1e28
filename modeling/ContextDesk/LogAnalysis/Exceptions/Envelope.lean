import ContextDesk.Lib.ByteIndex
import ContextDesk.Lib.Respaced

/-!
# Exception envelopes

How one log message is read: the envelope before its structural payload (level, stream, thread),
the execution identifiers it names, and the lines that are exception structure. Texts are lists of
characters. Every index of the source that is cut at comes from a search for what stands there, so
a text is split here where the search found it; the bounds on such an index stay in bytes.
-/

namespace ContextDesk.LogAnalysis.Exceptions

open Lib Lib.Text Lib.Str Lib.ByteIndex

abbrev Chars := List Char

/-! ## Methods of `str` -/

/-- `str::strip_prefix`. -/
def stripPrefix (start : String) (l : Chars) : Option Chars :=
  if startsWith start l then some (l.drop start.toList.length) else none

/-- `str::ends_with`. -/
def endsWith (tail : String) (l : Chars) : Bool := tail.toList.isSuffixOf l

/-- `str::find` of one character, and the texts before and after it. -/
def splitOnce (c : Char) (l : Chars) : Option (Chars × Chars) :=
  match l.dropWhile (· ≠ c) with
  | [] => none
  | _ :: rest => some (l.takeWhile (· ≠ c), rest)

def isHexDigit (c : Char) : Bool :=
  c.isDigit || ('a' ≤ c && c ≤ 'f') || ('A' ≤ c && c ≤ 'F')

/-! ## Structure lines -/

def stderrToken : String := "[stderr]"

def maxEnvelopePrefixBytes : Nat := 256

def maxThreadTokenChars : Nat := 96

/-- Without one of the level tokens, or as it is. -/
def stripLevel (l : Chars) : Chars :=
  match ["ERROR ", "error ", "WARN ", "warn ", "INFO ", "info ", "DEBUG ", "debug ", "FATAL ",
      "fatal ", "TRACE ", "trace "].findSome? (stripPrefix · l) with
  | some rest => trimStart rest
  | none => l

/-- The test on the last segment of a token is blind to ASCII case. -/
def looksLikeExceptionToken (raw : Chars) : Bool :=
  let token := stripped (fun c => c ∈ [':', ',', '"', '\'', ';']) raw
  if token = [] ∨ 256 < byteLen token then false
  else
    let base := asciiLower (token.reverse.takeWhile (· ≠ '.')).reverse
    endsWith "exception" base || endsWith "error" base || endsWith "throwable" base

def templatePatternLooksLikeExceptionTypeLine (line : Chars) : Bool :=
  let line := trim (((stripPrefix "ERROR " line).or (stripPrefix "WARN " line)).or
    ((stripPrefix "INFO " line).or (stripPrefix "error " line)) |>.getD line)
  let line := ((stripPrefix stderrToken line).map trimStart).getD line
  let line :=
    if startsWith "(" line then ((splitOnce ')' line).map fun p => trimStart p.2).getD line
    else line
  let line := ((stripPrefix "Caused by:" line).map trimStart).getD line
  if startsWith "at " line then false
  else ((words isWhitespace line).take 8).any looksLikeExceptionToken

/-- Whether the marker starts the line, or follows one token of a service. -/
def templateLineStartsWithStructuralMarker (line : Chars) (marker : String) : Bool :=
  let line := stripLevel (trimStart line)
  let line := ((stripPrefix stderrToken line).map trimStart).getD line
  let line :=
    if startsWith "(" line then
      match splitOnce ')' line with
      | some (inner, rest) =>
        if byteLen inner ≤ maxThreadTokenChars then trimStart rest else line
      | none => line
    else line
  if startsWith marker line then true
  else
    match seek (startsWith marker) line with
    | none => false
    | some (before, _) =>
      let front := trimEnd before
      if front = [] ∨ 96 < byteLen front ∨ front.any isWhitespace then false
      else if templatePatternLooksLikeExceptionTypeLine front then false
      else front.all fun c => c.isAlphanum || c ∈ ['-', '_', '.', '/', '=', ':', '[', ']']

def isStackContinuation (line : Chars) : Bool :=
  let line := trim line
  startsWith "at " line || startsWith "... " line ||
    templateLineStartsWithStructuralMarker line "Caused by:" ||
    templateLineStartsWithStructuralMarker line "Suppressed:" ||
    startsWith "File \"" line || startsWith "--- End of inner exception" line

def hasStackFrame (message : Chars) : Bool := ((lines message).drop 1).any isStackContinuation

def isWrapperScaffoldLine (line : Chars) : Bool :=
  let t := trim line
  startsWith "Exception in thread" t || contains "Exception wrapper" t ||
    startsWith "Wrapped by:" t || startsWith "Nested exception" t ||
    (startsWith "... " t && endsWith " more" t)

/-! ## Threads -/

def isThreadChar (c : Char) : Bool := c.isAlphanum || c ∈ ['-', '_', '.', '/', ':', ' ']

def isValidThreadIdentityToken (token : Chars) : Bool :=
  match token with
  | [] => false
  | first :: _ =>
    if maxThreadTokenChars < token.length then false
    else if !(first.isAlphanum || first = '_') then false
    else token.all isThreadChar && !token.all isWhitespace

def isValidExplicitThreadToken (token : Chars) : Bool :=
  isValidThreadIdentityToken token && !token.any isWhitespace

/-- The thread in the parentheses that open `s`, and what follows them. -/
def parseParenthesizedThreadToken (s : Chars) : Option (Chars × Chars) :=
  match splitOnce ')' (s.drop 1) with
  | none => none
  | some (inner, after) =>
    if inner = [] then none
    else if '(' ∈ inner ∨ ')' ∈ inner then none
    else if isValidThreadIdentityToken inner then some (inner.take maxThreadTokenChars, after)
    else none

/-- The text from the first `key` on up to a character of `stop`, without quotes around it, where
the key starts within `limit` bytes. -/
def valueOfKey (stop : List Char) (limit : Nat) (key : String) (message : Chars) : Option Chars :=
  match seek (startsWith key) message with
  | none => none
  | some (before, here) =>
    if limit < byteLen before then none
    else
      let value := (here.drop key.toList.length).takeWhile fun c => !(isWhitespace c || c ∈ stop)
      some (stripped (fun c => c ∈ ['"', '\'']) value)

/-- Only explicitly named keys; a bare `id=` is none. -/
def extractRequestLikeId (message : Chars) : Option Chars :=
  ["request_id=", "requestId=", "correlation_id=", "correlationId=", "transaction_id=",
    "transactionId=", "trace_id=", "traceId="].findSome? fun key =>
    match valueOfKey [',', ']', ';', ')', '"'] (maxEnvelopePrefixBytes * 4) key message with
    | none => none
    | some value =>
      if value = [] ∨ maxThreadTokenChars < value.length then none
      else if value.all fun c => c.isAlphanum || c ∈ ['-', '_', ':', '.'] then
        some ("req:".toList ++ value)
      else none

def extractExplicitThreadKey (message : Chars) : Option Chars :=
  ["thread=", "thread_id=", "threadId=", "tid="].findSome? fun key =>
    match valueOfKey [',', ']', ';', ')'] maxEnvelopePrefixBytes key message with
    | none => none
    | some value =>
      if value = [] then none
      else if isValidExplicitThreadToken value then some (value.take maxThreadTokenChars)
      else none

/-! ## Signatures -/

def looksLikeExceptionType (token : Chars) : Bool :=
  if token ∈ ["Exception".toList, "Error".toList, "Failure".toList, "Panic".toList,
      "Throwable".toList] then false
  else ["Exception", "Error", "Failure", "Panic", "Throwable"].any (endsWith · token)

/-- A number, a long hexadecimal word or a value with a digit becomes `<*>`. -/
def normalizeSignatureToken (token : Chars) : Chars :=
  if token.all Char.isDigit || (8 ≤ byteLen token && token.all isHexDigit) then "<*>".toList
  else
    match splitOnce '=' token with
    | some (k, v) => if v.any Char.isDigit then k ++ "=<*>".toList else token
    | none => token

def normalizeSignatureDetail (detail : Chars) : Chars :=
  asciiLower ([' '].intercalate (((words isWhitespace detail).take 24).map normalizeSignatureToken))

def isTypeChar (c : Char) : Bool := c.isAlphanum || c ∈ ['.', '_', '$']

/-- The first type of the line from byte `start` on that ends the line or precedes a colon. -/
def scanSignature (start : Nat) : Chars → Option Chars
  | [] => none
  | c :: l =>
    if 512 < start then none
    else
      let token := (c :: l).takeWhile isTypeChar
      let following := trimStart ((c :: l).dropWhile isTypeChar)
      if (c.isAlpha || c = '_') && looksLikeExceptionType token &&
          (following = [] || startsWith ":" following) then
        let detail := normalizeSignatureDetail (trim ((stripPrefix ":" following).getD following))
        some (if detail = [] then asciiLower token else asciiLower token ++ ": ".toList ++ detail)
      else scanSignature (start + c.utf8Size) l

def exceptionSignatureLine (line : Chars) : Option Chars :=
  let line := trim line
  let line := trim (((stripPrefix "ERROR " line).or (stripPrefix "error " line)).or
    ((stripPrefix "WARN " line).or (stripPrefix "INFO " line)) |>.getD line)
  let line := ((stripPrefix stderrToken line).map trimStart).getD line
  let line :=
    if startsWith "(" line then
      ((parseParenthesizedThreadToken line).map fun p => trimStart p.2).getD line
    else line
  let line := ((stripPrefix "Caused by:" line).map trimStart).getD line
  if startsWith "at " line || startsWith "File \"" line then none
  else scanSignature 0 line

def looksLikeExceptionHeaderLine (line : Chars) : Bool := (exceptionSignatureLine line).isSome

/-- The signature of the last line that has one: the root cause. -/
def exceptionSignature (message : Chars) : Option Chars :=
  ((lines message).filterMap exceptionSignatureLine).getLast?.or
    ((lines message).findSome? exceptionSignatureLine)

/-! ## Envelopes -/

inductive EnvelopeStream where
  | stderr
  deriving DecidableEq

structure ExceptionEnvelope where
  structuralPayload : Chars
  stream : Option EnvelopeStream
  explicitThread : Option Chars
  parenthesizedThread : Option Chars
  executionKeyConflict : Bool
  malformed : Bool
  deriving DecidableEq

namespace ExceptionEnvelope

variable (env : ExceptionEnvelope)

def effectiveThread : Option Chars :=
  if env.executionKeyConflict || env.malformed then none
  else env.explicitThread.or env.parenthesizedThread

def isStderrStream : Bool := env.stream = some .stderr

def failClosedForAttachment : Bool := env.executionKeyConflict || env.malformed

end ExceptionEnvelope

def splitFirstLine (text : Chars) : Chars × Chars := (splitOnce '\n' text).getD (text, [])

/-- The byte where the token starts, and the text after it. -/
def findExactStderrToken (message : Chars) : Option (Nat × Chars) :=
  match seek (startsWith stderrToken) message with
  | none => none
  | some (before, here) =>
    if maxEnvelopePrefixBytes < byteLen before then none
    else some (byteLen before, here.drop stderrToken.toList.length)

/-- The first line and the lines after it, as one text. -/
def withRemainingLines (structural remaining : Chars) : Chars :=
  if remaining = [] then structural
  else (if structural = [] then [] else structural ++ ['\n']) ++ remaining

/-- A thread in parentheses at the start of `rest`, what is left of `rest`, and whether its
parentheses are malformed. -/
def takeThread (rest : Chars) : Option Chars × Chars × Bool :=
  if startsWith "(" rest then
    match parseParenthesizedThreadToken rest with
    | some (thread, after) => (some thread, trimStart after, false)
    | none => (none, rest, true)
  else (none, rest, false)

def differ {α : Type} [DecidableEq α] : Option α → Option α → Bool
  | some a, some b => a ≠ b
  | _, _ => false

def parseNonStderrEnvelope (message : Chars) (explicitThread : Option Chars) : ExceptionEnvelope :=
  let (firstLine, remaining) := splitFirstLine message
  let rest := stripLevel (trimStart firstLine)
  let rest :=
    if startsWith "[" rest then ((splitOnce ']' rest).map fun p => trimStart p.2).getD rest
    else rest
  let (parenthesizedThread, rest, malformed) := takeThread rest
  { structuralPayload := withRemainingLines rest remaining
    stream := none
    explicitThread := explicitThread
    parenthesizedThread := parenthesizedThread
    executionKeyConflict := differ explicitThread parenthesizedThread
    malformed := malformed }

def parseExceptionEnvelope (message : Chars) : ExceptionEnvelope :=
  let explicitThread := extractExplicitThreadKey message
  match findExactStderrToken message with
  | none => parseNonStderrEnvelope message explicitThread
  | some (tokenAt, afterToken) =>
    let (firstLineAfter, remaining) := splitFirstLine afterToken
    let (parenthesizedThread, rest, malformed) := takeThread (trimStart firstLineAfter)
    if maxEnvelopePrefixBytes < tokenAt then
      { structuralPayload := message
        stream := none
        explicitThread := explicitThread
        parenthesizedThread := none
        executionKeyConflict := false
        malformed := false }
    else
      { structuralPayload := withRemainingLines rest remaining
        stream := some .stderr
        explicitThread := explicitThread
        parenthesizedThread := parenthesizedThread
        executionKeyConflict := differ explicitThread parenthesizedThread
        malformed := malformed }

example : parseExceptionEnvelope "ERROR [stderr] (pool-1) a.TopException: x".toList =
    ⟨"a.TopException: x".toList, some .stderr, none, some "pool-1".toList, false, false⟩ := by
  decide +kernel

example : exceptionSignature "ERROR a.TopError: id=12 failed\n at x\nCaused by: b.LowError".toList =
    some "b.lowerror".toList := by
  decide +kernel

end ContextDesk.LogAnalysis.Exceptions
