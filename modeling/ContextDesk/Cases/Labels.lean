import ContextDesk.Cases.Contributions
import ContextDesk.Lib.Sorting

/-!
# Annotations and labels of artifacts

`addArtifactAnnotationsBulk` annotates up to 64 artifacts of a case, or adds a label to them or
takes one away. A label event is numbered within its artifact and its privacy class, and is charged
to one of two allowances: of the public events on public artifacts, and of all others.

A request and a stored result are values of their types. Of a shape check there is here what such a
value can fail, and a stored result is what `JSON.parse` makes of the stored text.
-/

namespace ContextDesk

open Lib

def MAX_EVIDENCE_LABEL_LENGTH : Nat := 120
def MAX_EVIDENCE_LABEL_EVENTS_PER_CASE : Nat := 25000
def MAX_ARTIFACT_ANNOTATION_BULK_IDS : Nat := 64

inductive LabelOperation where
  | add
  | remove
  deriving DecidableEq

def LabelOperation.text : LabelOperation → String
  | .add => "add"
  | .remove => "remove"

structure EvidenceLabelMutationV1 where
  label : JsString
  operation : LabelOperation
  deriving DecidableEq

structure EvidenceLabelEventV1 extends EvidenceLabelMutationV1 where
  sequence : Nat
  intentKey : JsString
  deriving DecidableEq

structure ArtifactAnnotationRow where
  labelEvent : Option EvidenceLabelEventV1
  id : JsString
  caseId : JsString
  artifactId : JsString
  body : JsString
  contentHash : JsString
  privacyClass : PrivacyClass
  authorId : JsString
  authorUsername : JsString
  createdAt : JsString
  sourceId : JsString
  deriving DecidableEq

structure ArtifactAnnotationBulkRequestV1 where
  artifactIds : List JsString
  body : JsString
  privacyClass : Option PrivacyClass
  clientTime : Option JsString
  sourceId : Option JsString
  idempotencyKey : JsString
  labelMutation : Option EvidenceLabelMutationV1

inductive ArtifactAnnotationBulkOutcome where
  | created
  | replayed
  | not_found
  | applied
  | already_desired
  deriving DecidableEq

def ArtifactAnnotationBulkOutcome.text : ArtifactAnnotationBulkOutcome → String
  | .created => "created"
  | .replayed => "replayed"
  | .not_found => "not_found"
  | .applied => "applied"
  | .already_desired => "already_desired"

structure ArtifactAnnotationBulkItemV1 where
  artifactId : JsString
  outcome : ArtifactAnnotationBulkOutcome
  annotation : Option ArtifactAnnotationRow := none
  deriving DecidableEq

structure ArtifactAnnotationBulkResultV1 where
  caseId : JsString
  items : List ArtifactAnnotationBulkItemV1
  labelMutation : Option EvidenceLabelMutationV1
  privacyClass : Option PrivacyClass
  idempotencyKey : Option JsString
  deriving DecidableEq

/-! ## Checks -/

def isHexUnit (u : UInt16) : Bool := isDigit u || (0x61 ≤ u && u ≤ 0x66)

def matchesUnits (units : List (UInt16 → Bool)) (s : JsString) : Bool :=
  s.length == units.length && (List.zipWith (fun p u => p u) units s).all id

/-- `8-4-4-4-12` hexadecimal digits, two of them of a narrower kind. -/
def uuidUnits (version variant : UInt16 → Bool) : List (UInt16 → Bool) :=
  let hex := fun n => List.replicate n isHexUnit
  hex 8 ++ [(· == 0x2d)] ++ hex 4 ++ [(· == 0x2d)] ++ version :: hex 3 ++ [(· == 0x2d)] ++
    variant :: hex 3 ++ [(· == 0x2d)] ++ hex 12

def RFC4122_UUID_RE : JsString → Bool :=
  matchesUnits (uuidUnits (fun u => 0x31 ≤ u && u ≤ 0x38)
    fun u => u == 0x38 || u == 0x39 || u == 0x61 || u == 0x62)

def nonEmpty (path : String) (s : JsString) : Outcome Unit :=
  ensure (s ≠ []) (ContractViolation path "expected non-empty string")

def parseEvidenceLabel (label : JsString) : Outcome Unit :=
  ensure (label ≠ [] ∧ label.length ≤ MAX_EVIDENCE_LABEL_LENGTH ∧ label = JsString.trim label ∧
      hasDangerousUnicode label = false ∧ label.all (fun u => u != 0x2028 && u != 0x2029) = true)
    (ContractViolation "$.label" "expected 1..120 trimmed safe single-line characters")

def checkLabelEvent (path : String) (event : EvidenceLabelEventV1) : Outcome Unit := do
  nonEmpty (path ++ ".label") event.label
  ensure ((event.sequence : Int) ≤ MAX_SAFE_INTEGER)
    (ContractViolation (path ++ ".sequence") "expected unsigned safe integer")
  nonEmpty (path ++ ".intentKey") event.intentKey

def parseEvidenceLabelEvent (event : EvidenceLabelEventV1) : Outcome Unit := do
  checkLabelEvent "$.labelEvent" event
  parseEvidenceLabel event.label
  ensure (1 ≤ event.sequence ∧ event.sequence ≤ MAX_EVIDENCE_LABEL_EVENTS_PER_CASE ∧
      isIdempotencyKey event.intentKey = true)
    (ContractViolation "$.labelEvent" "invalid bounded sequence or intent identity")

def parseEvidenceLabelMutation (mutation : EvidenceLabelMutationV1) : Outcome Unit := do
  nonEmpty "$.labelMutation.label" mutation.label
  parseEvidenceLabel mutation.label

def checkAnnotationRow (path : String) (row : ArtifactAnnotationRow) : Outcome Unit := do
  nonEmpty (path ++ ".body") row.body
  match row.labelEvent with
  | none => pure ()
  | some event => checkLabelEvent (path ++ ".labelEvent") event

def parseArtifactAnnotation (date : DateParser) (row : ArtifactAnnotationRow) : Outcome Unit := do
  checkAnnotationRow "$" row
  match row.labelEvent with
  | none => pure ()
  | some event => do
    parseEvidenceLabelEvent event
    ensureAll (fun id => ensure (matchesUnits (uuidUnits isHexUnit isHexUnit) id = true)
      (ContractViolation "$.labelEvent" "invalid binding UUID"))
      [row.id, row.caseId, row.artifactId, row.sourceId]
    ensure (JsString.trim row.authorId ≠ [] ∧ JsString.trim row.authorUsername ≠ [] ∧
        date.isIsoInstant row.createdAt = true ∧
        matchesUnits (List.replicate 64 isHexUnit) row.contentHash = true)
      (ContractViolation "$.labelEvent" "invalid attribution/time/hash")

def indexed (path : String) (index : Nat) : String := path ++ "[" ++ toString index ++ "]"

def parseArtifactAnnotationBulkRequest (request : ArtifactAnnotationBulkRequestV1) :
    Outcome Unit := do
  ensureAll (fun (id, index) => nonEmpty (indexed "$.artifactIds" index) id)
    request.artifactIds.zipIdx
  nonEmpty "$.body" request.body
  ensureAll (nonEmpty "$.sourceId") request.sourceId.toList
  nonEmpty "$.idempotencyKey" request.idempotencyKey
  ensureAll (fun mutation => nonEmpty "$.labelMutation.label" mutation.label)
    request.labelMutation.toList
  ensure (JsString.trim request.body ≠ [])
    (ContractViolation "$.body" "must contain non-whitespace text")
  ensure (1 ≤ request.artifactIds.length ∧
      request.artifactIds.length ≤ MAX_ARTIFACT_ANNOTATION_BULK_IDS)
    (ContractViolation "$.artifactIds" "must contain 1..=64 ids")
  ensure request.artifactIds.Nodup (ContractViolation "$.artifactIds" "must contain unique ids")
  ensureAll (fun (id, index) => ensure (RFC4122_UUID_RE id = true)
    (ContractViolation (indexed "$.artifactIds" index) "must be an RFC 4122 UUID"))
    request.artifactIds.zipIdx
  ensure (∀ sourceId ∈ request.sourceId, RFC4122_UUID_RE sourceId = true)
    (ContractViolation "$.sourceId" "must be an RFC 4122 UUID")
  ensure (isIdempotencyKey request.idempotencyKey = true)
    (ContractViolation "$.idempotencyKey" "must be 8..128 safe characters")
  match request.labelMutation with
  | none => pure ()
  | some mutation => do
    parseEvidenceLabelMutation mutation
    ensure (request.body = JsString.ofString (mutation.operation.text ++ ": ") ++ mutation.label)
      (ContractViolation "$.body" "must match the explicit label intent")
    ensure (request.privacyClass ≠ none)
      (ContractViolation "$.privacyClass" "required for label mutation")

/-- The binding of one item of a stored result. -/
def checkItem (date : DateParser) (result : ArtifactAnnotationBulkResultV1) (index : Nat)
    (item : ArtifactAnnotationBulkItemV1) : Outcome Unit := do
  let path := indexed "$.items" index
  ensure (item.outcome = .already_desired → result.labelMutation ≠ none)
    (ContractViolation "$.items" "label intent required")
  if item.outcome = .not_found ∨ item.outcome = .already_desired then
    ensure (none = item.annotation)
      (ContractViolation (path ++ ".annotation") "must be absent for not_found")
  else
    match item.annotation with
    | none => .error (ContractViolation (path ++ ".annotation")
        ("is required for " ++ item.outcome.text))
    | some parsed => do
      parseArtifactAnnotation date parsed
      match result.labelMutation with
      | some mutation =>
        ensure (item.outcome ≠ .created ∧
            parsed.labelEvent.map (·.toEvidenceLabelMutationV1) = some mutation ∧
            parsed.labelEvent.map (·.intentKey) = result.idempotencyKey ∧
            some parsed.privacyClass = result.privacyClass)
          (ContractViolation "$.items" "label result must bind frozen intent")
      | none =>
        ensure (parsed.labelEvent = none ∧ item.outcome ≠ .applied)
          (ContractViolation "$.items" "unexpected label event")
      ensure (parsed.caseId = result.caseId ∧ parsed.artifactId = item.artifactId)
        (ContractViolation (path ++ ".annotation") "must match result caseId and artifactId")

/-- The items in order; `ids` are those before. -/
def checkItems (date : DateParser) (result : ArtifactAnnotationBulkResultV1) (ids : List JsString)
    (index : Nat) : List ArtifactAnnotationBulkItemV1 → Outcome Unit
  | [] => pure ()
  | item :: items => do
    ensure (RFC4122_UUID_RE item.artifactId = true)
      (ContractViolation (indexed "$.items" index ++ ".artifactId") "must be an RFC 4122 UUID")
    ensure (item.artifactId ∉ ids)
      (ContractViolation "$.items" "must contain unique artifactId values")
    checkItem date result index item
    checkItems date result (item.artifactId :: ids) (index + 1) items

def parseArtifactAnnotationBulkResult (date : DateParser)
    (result : ArtifactAnnotationBulkResultV1) : Outcome ArtifactAnnotationBulkResultV1 := do
  nonEmpty "$.caseId" result.caseId
  ensureAll (fun (item, index) => do
    nonEmpty (indexed "$.items" index ++ ".artifactId") item.artifactId
    ensureAll (checkAnnotationRow (indexed "$.items" index ++ ".annotation")) item.annotation.toList)
    result.items.zipIdx
  ensureAll (fun mutation => nonEmpty "$.labelMutation.label" mutation.label)
    result.labelMutation.toList
  ensureAll (nonEmpty "$.idempotencyKey") result.idempotencyKey.toList
  ensure (RFC4122_UUID_RE result.caseId = true)
    (ContractViolation "$.caseId" "must be an RFC 4122 UUID")
  ensure (1 ≤ result.items.length ∧ result.items.length ≤ MAX_ARTIFACT_ANNOTATION_BULK_IDS)
    (ContractViolation "$.items" "must contain 1..=64 items")
  match result.labelMutation with
  | some mutation => do
    parseEvidenceLabelMutation mutation
    ensure (result.privacyClass ≠ none ∧
        result.idempotencyKey.any isIdempotencyKey = true)
      (ContractViolation "$.labelMutation" "requires privacy and intent identity")
  | none =>
    ensure (result.privacyClass = none ∧ result.idempotencyKey = none)
      (ContractViolation "$" "unexpected label intent fields")
  checkItems date result [] 0 result.items
  pure result

/-! ## Labels that are present -/

structure EvidenceLabelStateV1 where
  artifactId : JsString
  label : JsString
  deriving DecidableEq

abbrev LabelKey := JsString × JsString × PrivacyClass

/-- The label events with their keys, by sequence. -/
def orderedEvents (history : List ArtifactAnnotationRow) :
    List (LabelKey × EvidenceLabelEventV1) :=
  (history.filterMap fun row => row.labelEvent.map fun event =>
    ((row.artifactId, event.label, row.privacyClass), event)).mergeSort
      fun a b => a.2.sequence ≤ b.2.sequence

def applyEvent (active : List LabelKey) : LabelKey × EvidenceLabelEventV1 → List LabelKey
  | (key, event) =>
    match event.operation with
    | .add => if key ∈ active then active else active ++ [key]
    | .remove => active.filter (· ≠ key)

def projectEvidenceLabels (history : List ArtifactAnnotationRow) : List EvidenceLabelStateV1 :=
  let active := (orderedEvents history).foldl applyEvent []
  (active.map fun (artifactId, label, _) =>
    (⟨artifactId, label⟩ : EvidenceLabelStateV1)).eraseDups.mergeSort
      fun a b => a.artifactId < b.artifactId ∨ a.artifactId = b.artifactId ∧ a.label ≤ b.label

/-! ## The store -/

structure AnnotationTable where
  rows : List ArtifactAnnotationRow := []
  distinct : (rows.map (·.id)).Nodup := by exact List.nodup_nil

/-- `createdAt` and then `id`, of which only that it orders rows with different ids is used. -/
structure AnnotationOrder where
  before : ArtifactAnnotationRow → ArtifactAnnotationRow → Bool
  compares : Compares before
  eq_of_before : ∀ a b, before a b = true → before b a = true → a.id = b.id

structure ArtifactAnnotationBulkWriteIntent where
  caseId : JsString
  actorId : JsString
  idempotencyKey : JsString
  requestDigest : JsString
  result : ArtifactAnnotationBulkResultV1
  createdAt : JsString
  deriving DecidableEq

/-- The case store with the annotations, and the intents by case, actor and key. -/
structure LabelDb where
  db : CaseDb
  artifactAnnotations : AnnotationTable := {}
  artifactAnnotationBulkIntents :
    JsString × JsString × JsString → Option ArtifactAnnotationBulkWriteIntent := fun _ => none

inductive LabelThrown where
  | error (message : String)
  | contract (violation : String)
  /-- The key was used for another request. -/
  | conflict
  deriving DecidableEq

def demandLabel (c : Prop) [Decidable c] (e : LabelThrown) : Except LabelThrown Unit :=
  if c then .ok () else .error e

structure LabelEnv extends ContributionEnv where
  artifactAnnotationBulkWriteDigest : List JsString → JsString → PrivacyClass → JsString → JsString
  labelWriteDigest : List JsString → EvidenceLabelMutationV1 → PrivacyClass → JsString → JsString
  /-- Of an artifact and a body. -/
  annotationContentHash : JsString → JsString → JsString
  order : AnnotationOrder

def LabelDb.artifactOf (s : LabelDb) (caseId artifactId : JsString) : Option ArtifactRow :=
  (s.db.artifacts artifactId).filter (·.caseId = caseId)

def listArtifactAnnotationsByCase (order : AnnotationOrder) (s : LabelDb) (caseId : JsString) :
    List ArtifactAnnotationRow :=
  (s.artifactAnnotations.rows.filter (·.caseId = caseId)).mergeSort order.before

def insertArtifactAnnotation (s : LabelDb) (row : ArtifactAnnotationRow) :
    Except LabelThrown LabelDb :=
  if (s.artifactOf row.caseId row.artifactId).isNone then
    .error (.error "artifact annotation target does not belong to the case")
  else if h : row.id ∈ s.artifactAnnotations.rows.map (·.id) then
    .error (.error "artifact annotation already exists")
  else
    .ok
      { s with
        artifactAnnotations :=
          { rows := s.artifactAnnotations.rows ++ [row]
            distinct := by
              rw [List.map_append]
              refine List.nodup_append.mpr ⟨s.artifactAnnotations.distinct, by simp, ?_⟩
              rintro a ha b hb rfl
              rw [List.mem_singleton.mp hb] at ha
              exact h ha } }

def appendLabelEvent (s : LabelDb) (caseId : JsString) (event : TimelineInsert) (now : UtcTime) :
    Except LabelThrown LabelDb :=
  if (s.db.timeline caseId).length < ARRAY_MAX_LENGTH then
    .ok { s with db := s.db.appended caseId event now }
  else .error (.error "Invalid array length")

/-! ## The call -/

/-- What a call takes from the clock and the generator of ids. -/
structure BulkStamp where
  createdAt : UtcTime
  uuid : Nat → JsString
  now : Nat → UtcTime

structure BulkCall where
  stamp : BulkStamp
  caseId : JsString
  actor : Actor
  request : ArtifactAnnotationBulkRequestV1
  origin : JsString
  canReadPrivate : Bool

structure CheckedBulk where
  clientTime : Option JsString
  privacy : PrivacyClass
  artifactIds : List JsString

/-- What a call has read of the case before its writes. -/
structure BulkRead where
  sourceId : JsString
  found : JsString → Option ArtifactRow
  history : List ArtifactAnnotationRow
  isPublic : JsString → PrivacyClass → Bool
  current : List EvidenceLabelStateV1

structure BulkWork where
  s : LabelDb
  items : List ArtifactAnnotationBulkItemV1 := []
  publicEventCount : Nat
  protectedEventCount : Nat
  /-- Rows that are inserted. -/
  inserted : Nat := 0

section

variable (env : LabelEnv) (call : BulkCall)

def checkBulk : Except LabelThrown CheckedBulk := do
  demandLabel (RFC4122_UUID_RE call.caseId = true)
    (.contract (ContractViolation "$.caseId" "must be an RFC 4122 UUID"))
  (parseArtifactAnnotationBulkRequest call.request).mapError .contract
  demandLabel (¬ (call.request.labelMutation ≠ none ∧
      call.request.privacyClass = some .owner_only ∧ call.canReadPrivate = false))
    (.error "label authority unavailable")
  let clientTime ← (env.canonicalClientTime call.request.clientTime).mapError .error
  pure
    { clientTime
      privacy := call.request.privacyClass.getD .owner_only
      artifactIds := call.request.artifactIds.mergeSort fun a b => a ≤ b }

def bulkDigest (checked : CheckedBulk) (sourceId : JsString) : JsString :=
  match call.request.labelMutation with
  | none => env.artifactAnnotationBulkWriteDigest checked.artifactIds call.request.body
      checked.privacy sourceId
  | some mutation => env.labelWriteDigest checked.artifactIds mutation checked.privacy sourceId

/-- An artifact that the caller may annotate, or label. -/
def foundArtifact (s : LabelDb) (artifactId : JsString) : Option ArtifactRow :=
  (s.artifactOf call.caseId artifactId).filter fun artifact =>
    call.request.labelMutation = none ∨ call.canReadPrivate = true ∨
      artifact.privacyClass ≠ .owner_only

def inRequestOrder (items : List ArtifactAnnotationBulkItemV1)
    (item : ArtifactAnnotationBulkItemV1 → ArtifactAnnotationBulkItemV1) :
    Except LabelThrown (List ArtifactAnnotationBulkItemV1) :=
  call.request.artifactIds.mapM fun artifactId =>
    match items.find? (·.artifactId = artifactId) with
    | some found => .ok (item found)
    | none => .error (.error "artifact annotation bulk result is incomplete")

def replayedItem (s : LabelDb) (item : ArtifactAnnotationBulkItemV1) :
    ArtifactAnnotationBulkItemV1 :=
  if call.request.labelMutation ≠ none ∧ foundArtifact call s item.artifactId = none then
    { artifactId := item.artifactId, outcome := .not_found }
  else if item.outcome = .not_found ∨ item.outcome = .already_desired then item
  else { item with outcome := .replayed }

def replayBulk (s : LabelDb) (stored : ArtifactAnnotationBulkResultV1) :
    Except LabelThrown ArtifactAnnotationBulkResultV1 := do
  let stored ← (parseArtifactAnnotationBulkResult env.date stored).mapError .contract
  let items ← inRequestOrder call stored.items (replayedItem call s)
  pure { stored with items }

def readBulk (s : LabelDb) (checked : CheckedBulk) (sourceId : JsString) : BulkRead :=
  let labels := call.request.labelMutation ≠ none
  let history := if labels then listArtifactAnnotationsByCase env.order s call.caseId else []
  { sourceId
    found := foundArtifact call s
    history
    isPublic artifactId eventPrivacy := labels ∧ eventPrivacy = .share_safe ∧
      (s.artifactOf call.caseId artifactId).map (·.privacyClass) = some .share_safe
    current := projectEvidenceLabels (history.filter (·.privacyClass = checked.privacy)) }

def startBulk (s : LabelDb) (read : BulkRead) : BulkWork :=
  let events := read.history.filter (·.labelEvent.isSome)
  { s
    publicEventCount := (events.filter fun row => read.isPublic row.artifactId row.privacyClass).length
    protectedEventCount :=
      (events.filter fun row => !read.isPublic row.artifactId row.privacyClass).length }

def lastSequence (history : List ArtifactAnnotationRow) (artifactId : JsString)
    (privacy : PrivacyClass) : Nat :=
  ((history.filter fun row => row.artifactId = artifactId ∧ row.privacyClass = privacy).filterMap
    fun row => row.labelEvent.map (·.sequence)).foldl max 0

def annotationOf (checked : CheckedBulk) (read : BulkRead) (artifactId : JsString)
    (labelEvent : Option EvidenceLabelEventV1) (index : Nat) : ArtifactAnnotationRow :=
  { labelEvent
    id := call.stamp.uuid index
    caseId := call.caseId
    artifactId
    body := call.request.body
    contentHash := env.annotationContentHash artifactId call.request.body
    privacyClass := checked.privacy
    authorId := call.actor.id
    authorUsername := call.actor.username
    createdAt := call.stamp.createdAt.toISOString
    sourceId := read.sourceId }

def annotateArtifact (checked : CheckedBulk) (read : BulkRead) (artifact : ArtifactRow)
    (artifactId : JsString) (labelEvent : Option EvidenceLabelEventV1) (work : BulkWork) :
    Except LabelThrown BulkWork := do
  let row := annotationOf env call checked read artifactId labelEvent work.inserted
  let s ← insertArtifactAnnotation work.s row
  let labels := call.request.labelMutation ≠ none
  let work := { work with
    s
    items := work.items ++ [⟨artifactId, if labels then .applied else .created, some row⟩]
    inserted := work.inserted + 1 }
  -- what is private leaves no trace in the timeline
  if ¬ labels ∨ checked.privacy = .share_safe ∧ artifact.privacyClass = .share_safe then do
    let s ← appendLabelEvent s call.caseId
      { kind := if labels then "artifact_label_changed" else "artifact_annotation_created"
        actor := call.actor
        targetId := some artifactId
        clientTime := checked.clientTime
        payload := .object [("annotationId", .string row.id), ("artifactId", .string artifactId),
          ("contentHash", .string row.contentHash), ("privacyClass", jsText checked.privacy.text),
          ("bulk", .bool true)] }
      (call.stamp.now (work.inserted - 1))
    pure { work with s }
  else pure work

/-- The event that `mutation` makes on an artifact, charged to its allowance. -/
def chargeEvent (mutation : EvidenceLabelMutationV1) (checked : CheckedBulk) (read : BulkRead)
    (artifactId : JsString) (work : BulkWork) :
    Except LabelThrown (EvidenceLabelEventV1 × BulkWork) :=
  let sequence := 1 + lastSequence read.history artifactId checked.privacy
  let isPublic := read.isPublic artifactId checked.privacy
  let eventCount := 1 + if isPublic then work.publicEventCount else work.protectedEventCount
  if MAX_EVIDENCE_LABEL_EVENTS_PER_CASE < eventCount then
    .error (.contract (ContractViolation "$.labelMutation"
      "case label history limit reached; no writes committed"))
  else
    .ok (⟨mutation, sequence, call.request.idempotencyKey⟩,
      if isPublic then { work with publicEventCount := eventCount }
      else { work with protectedEventCount := eventCount })

def bulkItem (checked : CheckedBulk) (read : BulkRead) (work : BulkWork) (artifactId : JsString) :
    Except LabelThrown BulkWork :=
  match read.found artifactId with
  | none => .ok { work with items := work.items ++ [⟨artifactId, .not_found, none⟩] }
  | some artifact =>
    match call.request.labelMutation with
    | none => annotateArtifact env call checked read artifact artifactId none work
    | some mutation =>
      let present := read.current.any (· = ⟨artifactId, mutation.label⟩)
      if present = decide (mutation.operation = .add) then
        .ok { work with items := work.items ++ [⟨artifactId, .already_desired, none⟩] }
      else do
        let (event, work) ← chargeEvent call mutation checked read artifactId work
        annotateArtifact env call checked read artifact artifactId (some event) work

def resultOf (checked : CheckedBulk) (items : List ArtifactAnnotationBulkItemV1) :
    ArtifactAnnotationBulkResultV1 where
  caseId := call.caseId
  items
  labelMutation := call.request.labelMutation
  privacyClass := call.request.labelMutation.map fun _ => checked.privacy
  idempotencyKey := call.request.labelMutation.map fun _ => call.request.idempotencyKey

/-- The intent and the audit record of the writes. -/
def finishBulk (checked : CheckedBulk) (digest : JsString) (work : BulkWork) :
    Except LabelThrown (ArtifactAnnotationBulkResultV1 × LabelDb) := do
  let result := resultOf call checked work.items
  let key := (call.caseId, call.actor.id, call.request.idempotencyKey)
  let s : LabelDb :=
    { work.s with
      artifactAnnotationBulkIntents := Function.update work.s.artifactAnnotationBulkIntents key
        (some ⟨call.caseId, call.actor.id, call.request.idempotencyKey, digest, result,
          call.stamp.createdAt.toISOString⟩)
      db := work.s.db.record ⟨call.actor.id, "artifact_annotation_bulk_create",
        call.caseId ++ JsString.ofString ":" ++ call.request.idempotencyKey, call.origin,
        .success⟩ }
  let items ← inRequestOrder call work.items id
  pure ({ result with items }, s)

/-- The call in its transaction: a call that throws writes nothing. -/
def addArtifactAnnotationsBulk (s : LabelDb) :
    Except LabelThrown (ArtifactAnnotationBulkResultV1 × LabelDb) := do
  let checked ← checkBulk env call
  demandLabel ((s.db.cases call.caseId).isSome = true) (.error "case not found")
  let sourceId ← (env.resolveSourceId call.actor call.request.sourceId).mapError .error
  let digest := bulkDigest env call checked sourceId
  match s.artifactAnnotationBulkIntents (call.caseId, call.actor.id, call.request.idempotencyKey)
    with
  | some existing => do
    demandLabel (existing.requestDigest = digest) .conflict
    let result ← replayBulk env call s existing.result
    pure (result, s)
  | none => do
    let read := readBulk env call s checked sourceId
    let work ← checked.artifactIds.foldlM (bulkItem env call checked read) (startBulk s read)
    finishBulk call checked digest work

end

end ContextDesk
