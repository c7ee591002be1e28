import ContextDesk.Lib.Rewrite

/-!
# Secret scrubbing

The nine passes of `redact_candidate` over a text, each by byte indices as the source has them: a
slice or a replacement that starts or ends inside a character is a `Stop.panic`. A pass answers
the text and whether it replaced something. `redactCandidate` runs them in order, and
`isCredentialDominant` runs all but the URL pass once more on the original. The Unicode test
`char::is_alphanumeric`, which only the prose count of `isCredentialDominant` uses, is the
parameter `alphanumeric`.
-/

namespace ContextDesk.Redact

open Lib.Text Lib.Str Lib.ByteIndex Lib.Rewrite

/-- A pass over the text: the new text, and whether something was replaced. -/
abbrev Pass := List Char → Exec (List Char × Bool)

/-! ## PEM blocks -/

/-- Each block is replaced, or its marker rewritten so that the search goes past it. -/
def pemLoop : Nat → List Char → Bool → Exec (List Char × Bool)
  | 0, _, _ => .error .outOfFuel
  | fuel + 1, out, changed => do
    match find "-----BEGIN " out with
    | none => return (out, changed)
    | some start =>
      match find "-----END " (← sliceFrom out start) with
      | none => return (out, changed)
      | some endRel =>
        let endLineStart := start + endRel
        let afterEnd ← sliceFrom out (endLineStart + 9)
        match find "-----" afterEnd with
        | none => return (out, changed)
        | some closeRel =>
          let last := min (endLineStart + 9 + closeRel + 5) (byteLen out)
          let block ← slice out start last
          if contains "PRIVATE KEY" block then
            let out ← replaceRange out start last "[REDACTED_PEM]".toList
            pemLoop fuel out true
          else
            let out ← replaceRange out start (start + 11) "_____BEGIN ".toList
            pemLoop fuel out changed

def redactPem : Pass := fun out => do
  let (out, changed) ← pemLoop (out.length + 1) out false
  -- restores the rewritten markers, and only after a block was replaced
  return (if changed then replaceAll "_____BEGIN " "-----BEGIN " out else out, changed)

/-! ## JSON web tokens -/

def isJwtChar (c : Char) : Bool := c.isAlphanum || c = '-' || c = '_'

/-- The dots and the length of the leading base64url segments. -/
def jwtScan : List UInt8 → Nat → Nat → Nat × Nat
  | [], dots, i => (dots, i)
  | b :: s, dots, i =>
    if onByte (· = '.') b then jwtScan s (dots + 1) (i + 1)
    else if onByte isJwtChar b then jwtScan s dots (i + 1)
    else (dots, i)

def jwtLen (s : List UInt8) : Option Nat :=
  let (dots, i) := jwtScan s 0 0
  if dots = 2 ∧ 30 ≤ i then some i else none

/-- `bytes[i..]` starts with `eyJ`. -/
def jwtStarts : List UInt8 → Bool
  | e :: y :: j :: _ => onByte (· = 'e') e && onByte (· = 'y') y && onByte (· = 'J') j
  | _ => false

def jwtLoop (bytes : List UInt8) : Nat → Nat → List (Nat × Nat) → Exec (List (Nat × Nat))
  | 0, _, _ => .error .outOfFuel
  | fuel + 1, i, ranges =>
    if i + 10 < bytes.length then
      if jwtStarts (bytes.drop i) then
        match jwtLen (bytes.drop i) with
        | some len =>
          if 30 ≤ len then jwtLoop bytes fuel (i + len) (ranges ++ [(i, i + len)])
          else jwtLoop bytes fuel (i + 1) ranges
        | none => jwtLoop bytes fuel (i + 1) ranges
      else jwtLoop bytes fuel (i + 1) ranges
    else .ok ranges

def redactJwt : Pass := fun out => do
  let bytes := bytes out
  let ranges ← jwtLoop bytes (bytes.length + 1) 0 []
  return (← replaceRanges "[REDACTED_JWT]".toList ranges out, !ranges.isEmpty)

/-! ## AWS keys -/

def isAwsKeyChar (c : Char) : Bool := c.isUpper || c.isDigit

def awsAccessKeyAt (out : List Char) (start : Nat) : Exec (List Char × Nat × Bool) := do
  let rest ← sliceFrom out start
  let chars := rest.take 20
  if 20 ≤ chars.length ∧ chars.all isAwsKeyChar ∧ chars.take 4 = "AKIA".toList then
    let last := start + byteLen chars
    return (← replaceRange out start last "AKIA[REDACTED]".toList, start + 14, true)
  else return (out, start + 4, false)

def redactAwsAccessKey : Pass := fun out =>
  scan (List.map id) "AKIA" awsAccessKeyAt (out.length + 1) 0 out false

def isAwsSecretChar (c : Char) : Bool := c.isAlphanum || c = '/' || c = '+' || c = '='

def isAwsSecretGap (c : Char) : Bool := c = ' ' || c = '\t' || c = '=' || c = ':'

/-- `lower` is taken once: the loop stops after its first replacement. -/
def awsSecretLoop (lower out : List Char) : Nat → Nat → Exec (List Char × Bool)
  | 0, _ => .error .outOfFuel
  | fuel + 1, searchFrom => do
    match find "aws_secret_access_key" (← sliceFrom lower searchFrom) with
    | none => return (out, false)
    | some rel =>
      let start := searchFrom + rel + 21
      let after ← sliceFrom out start
      let trimmed := after.dropWhile isAwsSecretGap
      let skip := byteLen after - byteLen trimmed
      let tokLen := (trimmed.takeWhile isAwsSecretChar).length
      if 30 ≤ tokLen then
        let tokStart := start + skip
        let tokEnd := tokStart + byteLen (trimmed.take tokLen)
        return (← replaceRange out tokStart tokEnd "[REDACTED_AWS_SECRET]".toList, true)
      else if byteLen out ≤ start then return (out, false)
      -- one byte on, whatever character stands there
      else awsSecretLoop lower out fuel (start + 1)

def redactAwsSecretLabel : Pass := fun out =>
  awsSecretLoop (asciiLower out) out (out.length + 1) 0

/-! ## Tokens behind a prefix -/

def eachKey (pass : String → Pass) (keys : List String) : Pass := fun out =>
  keys.foldlM (fun (out, changed) key => do
    let (out, hit) ← pass key out
    return (out, changed || hit)) (out, false)

def isGithubChar (c : Char) : Bool := c.isAlphanum || c = '_'

def githubTokenAt (key : String) (out : List Char) (start : Nat) :
    Exec (List Char × Nat × Bool) := do
  let rest ← sliceFrom out (start + byteLen key.toList)
  let tokLen := (rest.takeWhile isGithubChar).length
  if 20 ≤ tokLen then
    let last := start + byteLen key.toList + byteLen (rest.take tokLen)
    return (← replaceRange out start last "[REDACTED_GH_TOKEN]".toList, start + 19, true)
  else return (out, start + byteLen key.toList, false)

def githubPrefixes : List String := ["ghp_", "gho_", "ghu_", "ghs_", "ghr_", "github_pat_"]

def redactGithubTokens : Pass :=
  eachKey (fun key out => scan (List.map id) key (githubTokenAt key) (out.length + 1) 0 out false)
    githubPrefixes

def isKeyChar (c : Char) : Bool := c.isAlphanum || c = '-' || c = '_'

def prefixedKeyAt (key : String) (out : List Char) (i : Nat) : Exec (List Char × Nat × Bool) := do
  let rest ← sliceFrom out (i + byteLen key.toList)
  let tokLen := (rest.takeWhile isKeyChar).length
  if 8 ≤ tokLen then
    let last := i + byteLen key.toList + byteLen (rest.take tokLen)
    return (← replaceRange out i last (key ++ "***").toList, i + byteLen key.toList + 3, true)
  else return (out, i + byteLen key.toList, false)

def keyPrefixes : List String := ["sk-", "xai-"]

def redactPrefixedKeys : Pass :=
  eachKey (fun key out => scan (List.map id) key (prefixedKeyAt key) (out.length + 1) 0 out false)
    keyPrefixes

def isBearerChar (c : Char) : Bool := c.isAlphanum || c = '-' || c = '_' || c = '.'

def bearerAt (out : List Char) (i : Nat) : Exec (List Char × Nat × Bool) := do
  let rest ← sliceFrom out (i + 7)
  if startsWith "***" rest then return (out, i + 10, false)
  else
    let tokLen := (rest.takeWhile isBearerChar).length
    if tokLen = 0 then return (out, i + 7, false)
    else
      let last := min (i + 7 + byteLen (rest.take tokLen)) (byteLen out)
      return (← replaceRange out i last "Bearer ***".toList, i + 10, true)

def redactBearer : Pass := fun out =>
  scan (List.map id) "Bearer " bearerAt (out.length + 1) 0 out false

/-! ## Credentials in connection strings and query parameters -/

def urlKeys : List String :=
  ["password=", "passwd=", "pwd=", "secret=", "api_key=", "apikey=", "access_token=",
    "client_secret="]

def isUrlValueChar (c : Char) : Bool :=
  !(c = '&' || c = ';' || c = ' ' || c = '\t' || c = '\n' || c = '\r' || c = '"' ||
    c = Char.ofNat 39 || c = ')')

def urlValueAt (key : String) (out : List Char) (start : Nat) :
    Exec (List Char × Nat × Bool) := do
  let valueStart := start + byteLen key.toList
  let rest ← sliceFrom out valueStart
  let valueLen := byteLen (rest.takeWhile isUrlValueChar)
  if valueLen = 0 then return (out, valueStart, false)
  else
    return (← replaceRange out valueStart (valueStart + valueLen) "***".toList, valueStart + 3,
      true)

/-- The keys are searched in the lower-case copy, which is renewed with every replacement. -/
def redactUrlEmbeddedCredentials : Pass :=
  eachKey (fun key out =>
    scan (List.map Char.toLower) key (urlValueAt key) (out.length + 1) 0 out false) urlKeys

/-! ## High-entropy runs -/

def isRunChar (c : Char) : Bool := c.isAlphanum || c = '_' || c = '-'

def seeByte (seen : List UInt8) (b : UInt8) : List UInt8 :=
  if b.toNat < 128 ∧ b ∉ seen then b :: seen else seen

def looksHighEntropy (tok : List Char) : Bool :=
  if byteLen tok < 32 then false
  else if !(tok.any Char.isDigit && tok.any Char.isAlpha) then false
  else 16 ≤ ((bytes tok).foldl seeByte []).length

/-- `str::ends_with`. -/
def endsWith (part : String) (l : List Char) : Bool := part.toList.isSuffixOf l

def isSecretRun (tok : List Char) : Bool :=
  32 ≤ byteLen tok && !contains "REDACTED" tok && !endsWith "***" tok && looksHighEntropy tok

def entropyLoop (out : List Char) (bytes : List UInt8) :
    Nat → Nat → List (Nat × Nat) → Exec (List (Nat × Nat))
  | 0, _, _ => .error .outOfFuel
  | fuel + 1, i, ranges => do
    match bytes[i]? with
    | none => return ranges
    | some b =>
      if onByte isRunChar b then
        let last := i + ((bytes.drop i).takeWhile (onByte isRunChar)).length
        let tok ← slice out i last
        entropyLoop out bytes fuel last (if isSecretRun tok then ranges ++ [(i, last)] else ranges)
      else entropyLoop out bytes fuel (i + 1) ranges

def redactHighEntropy : Pass := fun out => do
  let bytes := bytes out
  let ranges ← entropyLoop out bytes (bytes.length + 1) 0 []
  return (← replaceRanges "[REDACTED_SECRET]".toList ranges out, !ranges.isEmpty)

/-! ## The pipeline -/

/-- The passes in their order, each with the class it reports. -/
def passes : List (String × Pass) :=
  [("pem", redactPem), ("jwt", redactJwt), ("aws_access_key", redactAwsAccessKey),
    ("aws_secret", redactAwsSecretLabel), ("github_token", redactGithubTokens),
    ("api_key_prefix", redactPrefixedKeys), ("bearer", redactBearer),
    ("url_credentials", redactUrlEmbeddedCredentials), ("high_entropy", redactHighEntropy)]

def pushClass (classes : List String) (c : String) : List String :=
  if classes.any (· = c) then classes else classes ++ [c]

/-- Run passes over a text, and collect the classes of those that replaced something. -/
def runPasses (passes : List (String × Pass)) (out : List Char) (classes : List String) :
    Exec (List Char × List String) :=
  passes.foldlM (fun (out, classes) pass => do
    let (out, hit) ← pass.2 out
    return (out, if hit then pushClass classes pass.1 else classes)) (out, classes)

/-- `scrub_secrets_light` leaves the URL pass out. -/
def lightPasses : List (String × Pass) :=
  [("pem", redactPem), ("jwt", redactJwt), ("aws_access_key", redactAwsAccessKey),
    ("aws_secret", redactAwsSecretLabel), ("github_token", redactGithubTokens),
    ("api_key_prefix", redactPrefixedKeys), ("bearer", redactBearer),
    ("high_entropy", redactHighEntropy)]

def scrubSecretsLight (s : List Char) : Exec (List Char) := do
  let (out, _) ← runPasses lightPasses s []
  return out

/-- `str::split_whitespace`. -/
def splitWhitespace (l : List Char) : List (List Char) :=
  (l.splitOnP isWhitespace).filter (· ≠ [])

/-- `str::trim_matches`. -/
def trimMatches (p : Char → Bool) (l : List Char) : List Char :=
  ((l.dropWhile p).reverse.dropWhile p).reverse

def isProseWord (alphanumeric : Char → Bool) (w : List Char) : Bool :=
  let w := trimMatches (fun c => !alphanumeric c) w
  if byteLen w < 2 then false
  else if 24 ≤ byteLen w then false
  else if startsWith "eyJ" w || startsWith "AKIA" w || startsWith "sk-" w || startsWith "ghp_" w ||
      startsWith "-----" w then false
  else true

def isResidualWord (w : List Char) : Bool :=
  !contains "REDACTED" w && !contains "***" w && w ≠ "Bearer".toList && !startsWith "sk-" w &&
    !startsWith "xai-" w && !startsWith "AKIA" w

def isCredentialDominant (alphanumeric : Char → Bool) (original : List Char)
    (classes : List String) : Exec Bool := do
  if classes.isEmpty then return false
  let trimmed := trim original
  if trimmed.isEmpty then return false
  let proseWords := ((splitWhitespace trimmed).filter (isProseWord alphanumeric)).length
  let scrubbed ← scrubSecretsLight original
  let residual := [' '].intercalate ((splitWhitespace scrubbed).filter isResidualWord)
  if (trim residual).isEmpty then return true
  if classes.any (· = "pem") && proseWords < 5 then return true
  if proseWords = 0 then return true
  if proseWords ≤ 1 && !classes.isEmpty then return true
  return false

structure RedactionResult where
  text : String
  redacted : Bool
  classes : List String
  blocked : Bool
  blockReason : Option String
  deriving DecidableEq

def redactCandidate (alphanumeric : Char → Bool) (s : String) : Exec RedactionResult := do
  let (out, classes) ← runPasses passes s.toList []
  let redacted := !classes.isEmpty
  let blocked ← isCredentialDominant alphanumeric s.toList classes
  let blockReason :=
    if blocked then
      some ("content appears credential-dominant (" ++ ",".intercalate classes ++
        "); refuse to store")
    else none
  return { text := String.ofList out, redacted := redacted || blocked, classes := classes,
           blocked := blocked, blockReason := blockReason }

def scrubSecrets (alphanumeric : Char → Bool) (s : String) : Exec String := do
  let result ← redactCandidate alphanumeric s
  return result.text

end ContextDesk.Redact
