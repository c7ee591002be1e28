import ContextDesk.Temporal.Instant

/-!
# Occurrences

When a thing happened, beside when it was recorded. An occurrence is kept as the text it was
recorded with, and its precision and zone are derived from the text by `classify`. The key that
occurrences are sorted by is the instant of the text, or the recording clock when there is no text.
-/

namespace ContextDesk

open Lib Lib.Calendar

inductive OccurredAtPrecision where
  | year
  | month
  | day
  | minute
  | second
  | unknown
  deriving DecidableEq

def OccurredAtPrecision.text : OccurredAtPrecision → String
  | .year => "year"
  | .month => "month"
  | .day => "day"
  | .minute => "minute"
  | .second => "second"
  | .unknown => "unknown"

def OCCURRED_AT_PRECISIONS : List OccurredAtPrecision :=
  [.year, .month, .day, .minute, .second, .unknown]

inductive OccurredAtZone where
  | explicit
  | unspecified
  deriving DecidableEq

def OccurredAtZone.text : OccurredAtZone → String
  | .explicit => "explicit"
  | .unspecified => "unspecified"

def OCCURRED_AT_ZONES : List OccurredAtZone := [.explicit, .unspecified]

def BACKFILL_TOLERANCE_MS : Int := 60000
def FUTURE_SKEW_TOLERANCE_MS : Int := 5 * 60000
def EARLIEST_OCCURRED_AT : JsString := JsString.ofString "1970-01-01T00:00:00.000Z"
def MAX_OFFSET_MINUTES : Int := 14 * 60

structure NormalizedOccurredAt where
  occurredAt : Option JsString
  occurredAtPrecision : OccurredAtPrecision
  occurredAtZone : OccurredAtZone
  deriving DecidableEq

/-- Fields that arrived from outside, `none` where a field is missing. -/
structure OccurredAtInput where
  occurredAt : Option JsValue := none
  occurredAtPrecision : Option JsValue := none
  occurredAtZone : Option JsValue := none

structure OccurrenceV1 extends NormalizedOccurredAt where
  recordedAt : JsString
  deriving DecidableEq

/-! ## Patterns -/

/-- A part of a pattern: so many digits, which are a group, or a unit. -/
inductive Piece where
  | number (width : Nat)
  | unit (u : UInt16)

/-- The numbers of the groups at the front of a text, and the text after them. -/
def exec : List Piece → JsString → Option (List Nat × JsString)
  | [], s => some ([], s)
  | .unit _ :: _, [] => none
  | .unit u :: pieces, v :: s => if v = u then exec pieces s else none
  | .number w :: pieces, s =>
    if w ≤ s.length ∧ (s.take w).all isDigit = true then
      (exec pieces (s.drop w)).map fun (groups, rest) => (readNumber (s.take w) :: groups, rest)
    else none

def YEAR_RE : List Piece := [.number 4]
def MONTH_RE : List Piece := YEAR_RE ++ [.unit 45, .number 2]
def DAY_RE : List Piece := MONTH_RE ++ [.unit 45, .number 2]
def MINUTE_RE : List Piece := DAY_RE ++ [.unit 84, .number 2, .unit 58, .number 2]
def SECOND_RE : List Piece := MINUTE_RE ++ [.unit 58, .number 2]

/-- The rest after `(\.\d{1,3})?`, where no digit follows. -/
def afterFraction : JsString → Option JsString
  | 46 :: s =>
    let digits := s.takeWhile isDigit
    if 1 ≤ digits.length ∧ digits.length ≤ 3 then some (s.dropWhile isDigit) else none
  | s => some s

def execAll (pieces : List Piece) (s : JsString) : Option (List Nat) :=
  match exec pieces s with
  | some (groups, []) => some groups
  | _ => none

def execSecond (s : JsString) : Option (List Nat) :=
  match exec SECOND_RE s with
  | some (groups, rest) => if afterFraction rest = some [] then some groups else none
  | none => none

/-- `ZONED_INSTANT_RE`: the numbers and the text of the zone. -/
def execZoned (s : JsString) : Option (List Nat × JsString) :=
  match exec SECOND_RE s with
  | some (groups, rest) =>
    match afterFraction rest with
    | some zone => if isZone zone = true then some (groups, zone) else none
    | none => none
  | none => none

/-! ## Checks -/

/-- `new Date(Date.UTC(year, month - 1, day))`: a year below 100 counts from 1900, and a day that
the month does not have falls into another month. -/
def probe (p : Parts) : Date :=
  dateOf (Date.dayNumber ⟨if p.year ≤ 99 then 1900 + p.year else p.year, p.month, 1⟩ + p.day - 1)

def assertRealCalendarParts (p : Parts) (path : String) : Outcome Unit := do
  ensure (¬ (p.month < 1 ∨ p.month > 12)) (ContractViolation path "month is out of range")
  ensure (¬ (p.day < 1 ∨ p.day > 31)) (ContractViolation path "day is out of range")
  ensure (¬ p.hour > 23) (ContractViolation path "hour is out of range")
  ensure (¬ p.minute > 59) (ContractViolation path "minute is out of range")
  ensure (¬ p.second > 59) (ContractViolation path "second is out of range")
  ensure (probe p = p.date) (ContractViolation path "that calendar date does not exist")

def assertRealOffset (offset : JsString) (path : String) : Outcome Unit :=
  if offset = [90] then .ok ()
  else do
    let sign : Int := if offset.head? = some 45 then -1 else 1
    let hours : Int := readNumber ((offset.drop 1).take 2)
    let minutes : Int := readNumber ((offset.drop 4).take 2)
    ensure (¬ minutes > 59) (ContractViolation path "offset minutes are out of range")
    ensure (¬ |sign * (hours * 60 + minutes)| > MAX_OFFSET_MINUTES)
      (ContractViolation path "offset is out of range")

namespace DateParser

variable (date : DateParser)

def canonicalInstant (value : JsString) : Outcome JsString := do
  ensure (date.isIsoInstant value = true)
    (ContractViolation "$.instant" "expected an ISO-8601 instant with an explicit offset")
  let t ← require (date.parse value) "Invalid time value"
  pure (toISOString t)

structure ClassifiedOccurredAt where
  precision : OccurredAtPrecision
  zone : OccurredAtZone
  /-- For range checks and ordering, never for display. -/
  approximateInstant : JsString
  stored : JsString
  deriving DecidableEq

/-- The forms without a zone, with what makes an instant of their text. -/
def partialForms : List ((JsString → Option (List Nat)) × OccurredAtPrecision × String) :=
  [(execSecond, .second, ""), (execAll MINUTE_RE, .minute, ":00"),
    (execAll DAY_RE, .day, "T00:00:00"), (execAll MONTH_RE, .month, "-01T00:00:00"), (execAll YEAR_RE, .year, "-01-01T00:00:00")]

/-- The fields of a match: `undefined` groups are 1 in a date and 0 in a time. -/
def partsOf (groups : List Nat) (precision : OccurredAtPrecision) : Parts :=
  let dateOnly := precision = .day ∨ precision = .month ∨ precision = .year
  { year := groups.getD 0 0
    month := groups.getD 1 1
    day := groups.getD 2 1
    hour := if dateOnly then 0 else groups.getD 3 0
    minute := if dateOnly then 0 else groups.getD 4 0
    second := if precision = .second then groups.getD 5 0 else 0 }

def classifyPartial (text : JsString) (path : String) :
    List ((JsString → Option (List Nat)) × OccurredAtPrecision × String) →
      Outcome ClassifiedOccurredAt
  | [] => .error (ContractViolation path
      ("expected YYYY, YYYY-MM, YYYY-MM-DD, YYYY-MM-DDThh:mm, YYYY-MM-DDThh:mm:ss, " ++
        "or a full instant with an offset"))
  | (re, precision, suffix) :: forms =>
    match re text with
    | none => classifyPartial text path forms
    | some groups => do
      assertRealCalendarParts (partsOf groups precision) path
      let approximate := text ++ JsString.ofString suffix ++ JsString.ofString "Z"
      let parsed ← require (date.parse approximate) (ContractViolation path "not a real date")
      pure ⟨precision, .unspecified, toISOString parsed, text⟩

def classify (text : JsString) (path : String) : Outcome ClassifiedOccurredAt :=
  match execZoned text with
  | some (groups, zone) => do
    assertRealCalendarParts (partsOf groups .second) path
    assertRealOffset zone path
    let parsed ← require (date.parse text) (ContractViolation path "not a real instant")
    pure ⟨.second, .explicit, toISOString parsed, toISOString parsed⟩
  | none => date.classifyPartial text path partialForms

/-! ## Calls -/

def UNRECORDED_OCCURRENCE : NormalizedOccurredAt := ⟨none, .unknown, .unspecified⟩

structure NormalizeOptions where
  now : Option JsString := none
  path : String := "$"

/-- Missing, `null` or the text. -/
def agrees (value : Option JsValue) (text : String) : Bool :=
  match value with
  | none => true
  | some .null => true
  | some (.string s) => s = JsString.ofString text
  | some _ => false

/-- `none` is a clock that shows no time. -/
def nowOf (options : NormalizeOptions) (clock : Int) : Outcome (Option Int) :=
  match options.now with
  | none => pure (some clock)
  | some [] => pure (some clock)
  | some now => do
    let canonical ← date.canonicalInstant now
    pure (date.parse canonical)

def normalizeRecorded (input : OccurredAtInput) (rawAt : JsString) (options : NormalizeOptions)
    (clock : Int) : Outcome NormalizedOccurredAt := do
  let path := options.path
  let classified ← date.classify (JsString.trim rawAt) (path ++ ".occurredAt")
  ensure (agrees input.occurredAtPrecision classified.precision.text = true)
    (ContractViolation (path ++ ".occurredAtPrecision")
      ("precision is derived from occurredAt; expected " ++ classified.precision.text))
  ensure (agrees input.occurredAtZone classified.zone.text = true)
    (ContractViolation (path ++ ".occurredAtZone")
      ("zone is derived from occurredAt; expected " ++ classified.zone.text))
  let at? := date.parse classified.approximateInstant
  let now? ← date.nowOf options clock
  -- a comparison with `NaN` is false
  ensure (¬ ∃ t ∈ at?, ∃ now ∈ now?, t > now + FUTURE_SKEW_TOLERANCE_MS)
    (ContractViolation (path ++ ".occurredAt") "occurredAt must not be in the future")
  ensure (¬ ∃ t ∈ at?, ∃ earliest ∈ date.parse EARLIEST_OCCURRED_AT, t < earliest)
    (ContractViolation (path ++ ".occurredAt")
      "occurredAt must not precede 1970-01-01T00:00:00.000Z")
  pure ⟨some classified.stored, classified.precision, classified.zone⟩

def normalizeUnrecorded (input : OccurredAtInput) (path : String) :
    Outcome NormalizedOccurredAt := do
  ensure (agrees input.occurredAtPrecision "unknown" = true)
    (ContractViolation (path ++ ".occurredAtPrecision")
      "a precision cannot be stated without an occurredAt")
  pure UNRECORDED_OCCURRENCE

def normalizeOccurredAt (input : OccurredAtInput) (options : NormalizeOptions) (clock : Int) :
    Outcome NormalizedOccurredAt :=
  match input.occurredAt with
  | none => normalizeUnrecorded input options.path
  | some .null => normalizeUnrecorded input options.path
  | some (.string rawAt) =>
    if JsString.trim rawAt = [] then normalizeUnrecorded input options.path
    else date.normalizeRecorded input rawAt options clock
  | some _ => .error (ContractViolation (options.path ++ ".occurredAt") "expected string")

def occurredAtSortKey (occurrence : OccurrenceV1) : JsString :=
  match occurrence.occurredAt with
  | none => occurrence.recordedAt
  | some text =>
    match date.classify text "$.occurredAt" with
    | .ok classified => classified.approximateInstant
    | .error _ => occurrence.recordedAt

def occurrenceOrderKey (occurrence : OccurrenceV1) : JsString := date.occurredAtSortKey occurrence

def isBackfilled (occurrence : OccurrenceV1) : Bool :=
  match occurrence.occurredAt with
  | none => false
  | some _ =>
    match date.parse (date.occurredAtSortKey occurrence), date.parse occurrence.recordedAt with
    | some t, some recorded => decide (recorded - t > BACKFILL_TOLERANCE_MS)
    | _, _ => false

def assertOccurrenceFields (row : NormalizedOccurredAt) (path : String) : Outcome Unit :=
  match row.occurredAt with
  | none => do
    ensure (row.occurredAtPrecision = .unknown) (ContractViolation (path ++ ".occurredAtPrecision")
      "an absent occurredAt must record unknown precision")
    ensure (row.occurredAtZone = .unspecified) (ContractViolation (path ++ ".occurredAtZone")
      "an absent occurredAt has no time zone to record")
  | some text => do
    let classified ← date.classify text (path ++ ".occurredAt")
    ensure (classified.stored = text) (ContractViolation (path ++ ".occurredAt")
      "occurredAt must be stored in its canonical recorded form")
    ensure (classified.precision = row.occurredAtPrecision)
      (ContractViolation (path ++ ".occurredAtPrecision")
        ("precision must match occurredAt; expected " ++ classified.precision.text))
    ensure (classified.zone = row.occurredAtZone) (ContractViolation (path ++ ".occurredAtZone")
      ("zone must match occurredAt; expected " ++ classified.zone.text))

def occurrenceShape : ObjectShape :=
  [("occurredAt", .nullable, .str),
    ("occurredAtPrecision", .required, .en (OCCURRED_AT_PRECISIONS.map OccurredAtPrecision.text)),
    ("occurredAtZone", .required, .en (OCCURRED_AT_ZONES.map OccurredAtZone.text)),
    ("recordedAt", .required, .nstr)]

def textField (key : String) : JsValue → Option JsString
  | .object fields =>
    match ownProperty key fields with
    | some (.string s) => some s
    | _ => none
  | _ => none

/-- `raw as OccurrenceV1`, for a value of the shape. -/
def asOccurrence (raw : JsValue) : OccurrenceV1 where
  occurredAt := textField "occurredAt" raw
  occurredAtPrecision := (OCCURRED_AT_PRECISIONS.find? fun p =>
    textField "occurredAtPrecision" raw = some (JsString.ofString p.text)).getD .unknown
  occurredAtZone := (OCCURRED_AT_ZONES.find? fun z =>
    textField "occurredAtZone" raw = some (JsString.ofString z.text)).getD .unspecified
  recordedAt := (textField "recordedAt" raw).getD []

def parseOccurrence (raw : JsValue) (path : String) : Outcome OccurrenceV1 := do
  checkObject path occurrenceShape raw
  let parsed := asOccurrence raw
  ensure (date.isIsoInstant parsed.recordedAt = true)
    (ContractViolation (path ++ ".recordedAt") "expected a full ISO-8601 instant")
  date.assertOccurrenceFields parsed.toNormalizedOccurredAt path
  pure parsed

end DateParser

end ContextDesk
