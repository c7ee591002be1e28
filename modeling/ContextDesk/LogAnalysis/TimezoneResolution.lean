import ContextDesk.Lib.Text
import ContextDesk.LogAnalysis.Event

/-!
# Resolving local timestamps under a declared zone

A declaration says under which IANA zone the local timestamps of one source are to be read.
`SourceTimezoneResolver.resolve` decides one event: an explicit wall clock stays, retained local
text becomes an instant when the zone gives it exactly one (or the abbreviation in the text picks
one of two), everything else stays unresolved with a reason. The zone database, the parser of
calendar text and the hash are parameters, collected in `TimeLibrary`.
-/

namespace ContextDesk.LogAnalysis

open Lib

def timezoneDeclarationSchemaVersion : UInt32 := 1

def maxTimezoneSourceBytes : Nat := 4096

def maxIanaTimezoneBytes : Nat := 128

def minResolvedWallSeconds : Int := 0

def maxResolvedWallSeconds : Int := 4102444800

/-- A calendar date and time of day without a zone. -/
structure NaiveDateTime where
  year : Int
  month : Nat
  day : Nat
  hour : Nat
  minute : Nat
  second : Nat
  nanosecond : Nat
  deriving DecidableEq

/-- An instant in a zone: Unix seconds, the zone's abbreviation and its offset there. -/
structure ZonedInstant where
  timestamp : Int
  abbreviation : Option String
  localMinusUtc : Int
  deriving DecidableEq

/-- The instants at which a zone shows a local time. -/
inductive LocalResult where
  | single (resolved : ZonedInstant)
  | ambiguous (first second : ZonedInstant)
  | none
  deriving DecidableEq

/-- What the resolver takes from the time and hash libraries. -/
structure TimeLibrary where
  /-- `Tz::from_str` accepts the identifier. -/
  isZone : String → Bool
  /-- `Tz::from_local_datetime`. -/
  fromLocalDatetime : String → NaiveDateTime → LocalResult
  /-- `NaiveDateTime::parse_from_str` of the bytes of a text under a format. -/
  parseFromStr : List UInt8 → String → Option NaiveDateTime
  /-- `DateTime::<Utc>::from_timestamp` accepts the seconds. -/
  isUtcTimestamp : Int → Bool
  /-- The SHA-256 of the bytes, in lower-case hexadecimal. -/
  sha256Hex : List UInt8 → String

inductive TimezoneDeclarationBasis where
  | userDeclared
  | configuredDefault
  deriving DecidableEq

structure SourceTimezoneDeclaration where
  schemaVersion : UInt32
  source : String
  ianaTimezone : String
  basis : TimezoneDeclarationBasis
  declaredAt : Int64
  appliedRevision : UInt64
  deriving DecidableEq

structure TimestampResolutionProvenance where
  source : String
  ianaTimezone : String
  basis : TimezoneDeclarationBasis
  declaredAt : Int64
  appliedRevision : UInt64
  originalLocalTimestamp : String
  resolvedUtcOffsetSeconds : Int
  deriving DecidableEq

inductive UnresolvedTimestampReason where
  | noRecognizedLocalTimestamp
  | unsupportedLocalTimestampShape
  | ambiguousDstFold
  | nonexistentDstGap
  | zoneAbbreviationMismatch
  | resolvedInstantOutOfRange
  deriving DecidableEq

inductive TimestampResolution where
  | existingWallClock (unixSeconds : Int)
  | resolved (unixSeconds : Int) (provenance : TimestampResolutionProvenance)
  | unresolved (reason : UnresolvedTimestampReason)
  deriving DecidableEq

inductive TimezoneResolutionError where
  | unsupportedSchema (version : UInt32)
  | invalidSource
  | invalidIanaTimezone
  | invalidDeclarationTime
  | invalidAppliedRevision
  | sourceMismatch
  | invalidCorpusIdentity
  | appliedRevisionMismatch
  | eventRevisionOverflow
  | contradictoryTimestampEvidence
  deriving DecidableEq

def TimezoneResolutionError.text : TimezoneResolutionError → String
  | unsupportedSchema version => s!"unsupported timezone declaration schema version: {version}"
  | invalidSource => "invalid portable source identity"
  | invalidIanaTimezone => "invalid IANA timezone"
  | invalidDeclarationTime => "invalid declaration time"
  | invalidAppliedRevision => "applied revision must be greater than zero"
  | sourceMismatch => "timezone declaration source does not match record source"
  | invalidCorpusIdentity => "invalid timezone preview corpus identity"
  | appliedRevisionMismatch => "timezone declaration revision does not match preview snapshot"
  | eventRevisionOverflow => "timezone event revision overflow"
  | contradictoryTimestampEvidence => "timestamp provenance is internally inconsistent"

structure ParsedTime where
  ts : Option Int
  timestampProvenance : TimestampProvenance
  activeTimestampBasis : ActiveTimestampBasis
  unresolvedLocalTimestamp : Option String
  deriving DecidableEq

/-! ## Declarations -/

/-- A source that names a file relative to the import root. -/
def validPortableSource (source : String) : Bool :=
  !(source == "" || source.utf8ByteSize > maxTimezoneSourceBytes ||
      source.toList.head? == some '/' || source.toList.head? == some '\\' ||
      source.toList.contains '\\' || source.toList.contains ':' ||
      source.toList.any Text.isControl) &&
    (source.toList.splitOn '/').all fun component =>
      component ≠ [] && component ≠ ['.'] && component ≠ ['.', '.']

variable (lib : TimeLibrary)

def validateDeclaration (declaration : SourceTimezoneDeclaration) : CoreResult Unit := do
  ensure (declaration.schemaVersion = timezoneDeclarationSchemaVersion)
    (TimezoneResolutionError.unsupportedSchema declaration.schemaVersion).text
  ensure (validPortableSource declaration.source) TimezoneResolutionError.invalidSource.text
  ensure (¬ (declaration.ianaTimezone = "" ∨
      declaration.ianaTimezone.utf8ByteSize > maxIanaTimezoneBytes ∨
      declaration.ianaTimezone.toList.any Text.isControl))
    TimezoneResolutionError.invalidIanaTimezone.text
  ensure (lib.isUtcTimestamp declaration.declaredAt.toInt)
    TimezoneResolutionError.invalidDeclarationTime.text
  ensure (declaration.appliedRevision ≠ 0) TimezoneResolutionError.invalidAppliedRevision.text

/-- A validated declaration; the zone is known by its identifier. -/
structure SourceTimezoneResolver where
  declaration : SourceTimezoneDeclaration
  deriving DecidableEq

def SourceTimezoneResolver.new (declaration : SourceTimezoneDeclaration) :
    CoreResult SourceTimezoneResolver := do
  validateDeclaration lib declaration
  ensure (lib.isZone declaration.ianaTimezone) TimezoneResolutionError.invalidIanaTimezone.text
  pure { declaration }

/-! ## Resolution -/

/-- A trailing zone abbreviation: two to eight upper-case letters. -/
def isAbbreviation (candidate : List Char) : Bool :=
  2 ≤ (Text.bytes candidate).length && (Text.bytes candidate).length ≤ 8 &&
    candidate.all Char.isUpper

/-- The bytes of a calendar text with three fractional digits, with the separators that the
format expects. -/
def canonicalMillis (calendar : List UInt8) : List UInt8 :=
  (calendar.set 10 32).set 19 46

def parseCompleteLocalTimestamp (value : String) : Option (NaiveDateTime × Option String) :=
  let value := Text.trim value.toList
  let (calendar, abbreviation) :=
    match (Text.rsplitOnce ' ' value).filter fun split => isAbbreviation split.2 with
    | some (calendar, abbreviation) => (Text.trimEnd calendar, some (String.ofList abbreviation))
    | none => (value, none)
  let canonical := Text.bytes calendar
  -- WildFly and classic Elasticsearch keep three fractional digits after `,` or `.`
  if canonical.length = 23 ∧ (canonical[10]? = some 32 ∨ canonical[10]? = some 84) ∧
      (canonical[19]? = some 44 ∨ canonical[19]? = some 46) then
    (lib.parseFromStr (canonicalMillis canonical) "%Y-%m-%d %H:%M:%S%.3f").map (·, abbreviation)
  else
    ((lib.parseFromStr canonical "%Y-%m-%dT%H:%M:%S%.f").orElse fun _ =>
      lib.parseFromStr canonical "%Y-%m-%d %H:%M:%S%.f").map (·, abbreviation)

/-- The abbreviation in the source text, if any, is the zone's at that instant. -/
def abbreviationMatches (sourceAbbreviation : Option String) (resolved : ZonedInstant) : Bool :=
  match sourceAbbreviation with
  | none => true
  | some source => resolved.abbreviation.any fun actual =>
    Text.eqIgnoreAsciiCase actual.toList source.toList

def SourceTimezoneResolver.resolvedResult (resolver : SourceTimezoneResolver) (localText : String)
    (resolved : ZonedInstant) : TimestampResolution :=
  if minResolvedWallSeconds ≤ resolved.timestamp ∧ resolved.timestamp ≤ maxResolvedWallSeconds then
    .resolved resolved.timestamp
      { source := resolver.declaration.source
        ianaTimezone := resolver.declaration.ianaTimezone
        basis := resolver.declaration.basis
        declaredAt := resolver.declaration.declaredAt
        appliedRevision := resolver.declaration.appliedRevision
        originalLocalTimestamp := localText
        resolvedUtcOffsetSeconds := resolved.localMinusUtc }
  else .unresolved .resolvedInstantOutOfRange

def SourceTimezoneResolver.resolveLocalText (resolver : SourceTimezoneResolver)
    (localText : String) : TimestampResolution :=
  match parseCompleteLocalTimestamp lib localText with
  | none => .unresolved .unsupportedLocalTimestampShape
  | some (localTime, sourceAbbreviation) =>
    match lib.fromLocalDatetime resolver.declaration.ianaTimezone localTime with
    | .single resolved =>
      if abbreviationMatches sourceAbbreviation resolved then
        resolver.resolvedResult localText resolved
      else .unresolved .zoneAbbreviationMismatch
    | .ambiguous first second =>
      match abbreviationMatches sourceAbbreviation first,
          abbreviationMatches sourceAbbreviation second with
      | true, false => resolver.resolvedResult localText first
      | false, true => resolver.resolvedResult localText second
      | false, false =>
        if sourceAbbreviation.isSome then .unresolved .zoneAbbreviationMismatch
        else .unresolved .ambiguousDstFold
      | true, true => .unresolved .ambiguousDstFold
    | .none => .unresolved .nonexistentDstGap

def SourceTimezoneResolver.resolve (resolver : SourceTimezoneResolver) (source : String)
    (parsed : ParsedTime) : CoreResult TimestampResolution :=
  if source ≠ resolver.declaration.source then
    .error TimezoneResolutionError.sourceMismatch.text
  else if parsed.activeTimestampBasis = .explicitWall then
    match parsed.ts with
    | some unixSeconds => .ok (.existingWallClock unixSeconds)
    | none => .error TimezoneResolutionError.contradictoryTimestampEvidence.text
  else if parsed.timestampProvenance ≠ .unresolvedLocal ∨
      ¬ (parsed.activeTimestampBasis = .orderOnly ∨
        parsed.activeTimestampBasis = .resolvedLocal) then
    .ok (.unresolved .noRecognizedLocalTimestamp)
  else
    match parsed.unresolvedLocalTimestamp with
    | none => .ok (.unresolved .noRecognizedLocalTimestamp)
    | some localText => .ok (resolver.resolveLocalText lib localText)

/-! ## Preview -/

structure TimezoneResolutionScope where
  corpusId : String
  eventRevision : Nat
  deriving DecidableEq

structure TimezoneResolutionPreview where
  corpusId : String
  eventRevision : Nat
  declarationFingerprint : String
  source : String
  ianaTimezone : String
  affectedRecords : Nat
  existingWallClockRecords : Nat
  unchangedOrderOnlyRecords : Nat
  firstResolvedInstant : Option Int
  lastResolvedInstant : Option Int
  dstGapCount : Nat
  dstFoldCount : Nat
  unsupportedTimestampCount : Nat
  zoneAbbreviationMismatchCount : Nat
  outOfRangeCount : Nat
  deriving DecidableEq

/-- `count.saturating_add(1)`. -/
def saturatingSucc (count : Nat) : Nat := min (count + 1) u64Max

def TimezoneResolutionPreview.observe (preview : TimezoneResolutionPreview) :
    TimestampResolution → TimezoneResolutionPreview
  | .existingWallClock _ =>
    { preview with existingWallClockRecords := saturatingSucc preview.existingWallClockRecords }
  | .resolved unixSeconds _ =>
    { preview with
      affectedRecords := saturatingSucc preview.affectedRecords
      firstResolvedInstant :=
        some (preview.firstResolvedInstant.elim unixSeconds fun value => min value unixSeconds)
      lastResolvedInstant :=
        some (preview.lastResolvedInstant.elim unixSeconds fun value => max value unixSeconds) }
  | .unresolved .ambiguousDstFold =>
    { preview with dstFoldCount := saturatingSucc preview.dstFoldCount }
  | .unresolved .nonexistentDstGap =>
    { preview with dstGapCount := saturatingSucc preview.dstGapCount }
  | .unresolved .unsupportedLocalTimestampShape =>
    { preview with unsupportedTimestampCount := saturatingSucc preview.unsupportedTimestampCount }
  | .unresolved .zoneAbbreviationMismatch =>
    { preview with
      zoneAbbreviationMismatchCount := saturatingSucc preview.zoneAbbreviationMismatchCount }
  | .unresolved .resolvedInstantOutOfRange =>
    { preview with outOfRangeCount := saturatingSucc preview.outOfRangeCount }
  | .unresolved .noRecognizedLocalTimestamp =>
    { preview with unchangedOrderOnlyRecords := saturatingSucc preview.unchangedOrderOnlyRecords }

def validateScope (scope : TimezoneResolutionScope) (declaration : SourceTimezoneDeclaration) :
    CoreResult Unit := do
  ensure (¬ (scope.corpusId = "" ∨ scope.corpusId.utf8ByteSize > 128 ∨
      ¬ scope.corpusId.toList.all fun c => c.isAlphanum || c == '-' || c == '_'))
    TimezoneResolutionError.invalidCorpusIdentity.text
  ensure (scope.eventRevision + 1 ≤ u64Max) TimezoneResolutionError.eventRevisionOverflow.text
  ensure (scope.eventRevision + 1 = declaration.appliedRevision.toNat)
    TimezoneResolutionError.appliedRevisionMismatch.text

/-- The little-endian bytes of a `u64`. -/
def leBytes (n : Nat) : List UInt8 := (List.range 8).map fun i => UInt8.ofNat (n / 256 ^ i)

def declarationFingerprint (scope : TimezoneResolutionScope)
    (declaration : SourceTimezoneDeclaration) : String :=
  lib.sha256Hex
    (Text.bytes "contextdesk.timezone-preview.v1\x00".toList ++
      Text.bytes scope.corpusId.toList ++ [0] ++ leBytes scope.eventRevision ++ [0] ++
      Text.bytes declaration.source.toList ++ [0] ++
      Text.bytes declaration.ianaTimezone.toList ++ Text.bytes "\x00user_declared\x00".toList ++
      leBytes declaration.appliedRevision.toNat)

/-- Every record in order; the first refusal ends the preview. -/
def SourceTimezoneResolver.observeAll (resolver : SourceTimezoneResolver) :
    List (String × ParsedTime) → TimezoneResolutionPreview → CoreResult TimezoneResolutionPreview
  | [], preview => .ok preview
  | (source, parsed) :: rest, preview => do
    let resolution ← resolver.resolve lib source parsed
    resolver.observeAll rest (preview.observe resolution)

def SourceTimezoneResolver.previewOwned (resolver : SourceTimezoneResolver)
    (scope : TimezoneResolutionScope) (records : List (String × ParsedTime)) :
    CoreResult TimezoneResolutionPreview := do
  validateScope scope resolver.declaration
  resolver.observeAll lib records
    { corpusId := scope.corpusId
      eventRevision := scope.eventRevision
      declarationFingerprint := declarationFingerprint lib scope resolver.declaration
      source := resolver.declaration.source
      ianaTimezone := resolver.declaration.ianaTimezone
      affectedRecords := 0
      existingWallClockRecords := 0
      unchangedOrderOnlyRecords := 0
      firstResolvedInstant := none
      lastResolvedInstant := none
      dstGapCount := 0
      dstFoldCount := 0
      unsupportedTimestampCount := 0
      zoneAbbreviationMismatchCount := 0
      outOfRangeCount := 0 }

end ContextDesk.LogAnalysis
