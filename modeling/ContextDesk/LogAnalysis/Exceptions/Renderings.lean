import ContextDesk.Lib.Slots
import ContextDesk.LogAnalysis.Exceptions.Envelope
import ContextDesk.LogAnalysis.Query

/-!
# Physical renderings

`deriveRenderEpisodes` assembles the events of a log into physical renderings: a full stack in one
record, or records of one stream that are joined while they follow each other on one lane (source
and thread). What one event does to the open lanes is the list of `LaneMove`s that `laneMoves` gives
for the rendering open on its lane, in the order of the source. A payload that is cut inside a
character panics.
-/

namespace ContextDesk.LogAnalysis.Exceptions

open Lib Lib.Slots Lib.Text Lib.Str
  ContextDesk.Lib.ByteIndex

def renderCap : Nat := 2048

def recordCap : Nat := 400

def payloadCap : Nat := 8192

def maxAdjacentSeqGap : Nat := 8

def maxAdjacentWallSeconds : Nat := 5

inductive ExceptionRenderingKind where
  | applicationFullStack
  | separatelyWrappedRecords
  deriving DecidableEq

inductive ExceptionCitationRole where
  | renderingLead
  | supportingRecord
  deriving DecidableEq

structure ExceptionEventCitation where
  seq : UInt64
  source : String
  templateId : UInt64
  role : ExceptionCitationRole
  renderingKind : ExceptionRenderingKind
  deriving DecidableEq

structure RenderEpisode where
  signature : Chars
  kind : ExceptionRenderingKind
  source : String
  service : Option String
  host : Option String
  thread : Option Chars
  executionKeyConflict : Bool
  envelopeMalformed : Bool
  traceId : Option String
  firstTs : Int
  lastTs : Int
  wallTime : Bool
  citations : List ExceptionEventCitation
  complete : Bool
  structuralPayload : Chars
  requestId : Option Chars
  deriving DecidableEq

namespace RenderEpisode

variable (episode : RenderEpisode)

def firstSeq : UInt64 := (episode.citations.head?.map (·.seq)).getD 0

def lastSeq : UInt64 := (episode.citations.getLast?.map (·.seq)).getD 0

end RenderEpisode

/-! ## One rendering -/

def citation (event : ExplorerEvent) (renderingKind : ExceptionRenderingKind)
    (role : ExceptionCitationRole) : ExceptionEventCitation where
  seq := event.seq
  source := event.source
  templateId := event.templateId
  role := role
  renderingKind := renderingKind

/-- `String::truncate` of a payload above the cap. -/
def truncatePayload (payload : Chars) : Exec Chars :=
  if payloadCap < byteLen payload then do
    let (front, _) ← boundary payloadCap payload
    return front
  else return payload

def newEpisode (event : ExplorerEvent) (env : ExceptionEnvelope) (signature : Chars)
    (kind : ExceptionRenderingKind) : Exec RenderEpisode := do
  let structuralPayload ← truncatePayload env.structuralPayload
  return {
    signature := signature
    kind := kind
    source := event.source
    service := event.service
    host := event.host
    thread := env.effectiveThread
    executionKeyConflict := env.executionKeyConflict
    envelopeMalformed := env.malformed
    traceId := event.traceId
    firstTs := event.ts
    lastTs := event.ts
    wallTime := event.activeTimestampBasis.isWallClock
    citations := [citation event kind .renderingLead]
    complete := true
    structuralPayload := structuralPayload
    requestId := (extractRequestLikeId structuralPayload).or
      (extractRequestLikeId event.message.toList) }

/-- The characters that start within `remain` bytes. -/
def startingWithin : Nat → Chars → Chars
  | _, [] => []
  | remain, c :: l => if 0 < remain then c :: startingWithin (remain - c.utf8Size) l else []

def appendPayload (payload add : Chars) : Chars :=
  if byteLen payload < payloadCap then
    let payload := if payload = [] then [] else payload ++ ['\n']
    payload ++ startingWithin (payloadCap - byteLen payload) add
  else payload

/-- A full rendering refuses the record and keeps its last sequence. -/
def attach (event : ExplorerEvent) (env : ExceptionEnvelope) (episode : RenderEpisode) :
    RenderEpisode :=
  if recordCap ≤ episode.citations.length then { episode with complete := false }
  else
    { episode with
      lastTs := event.ts
      executionKeyConflict := env.executionKeyConflict || episode.executionKeyConflict
      envelopeMalformed := env.malformed || episode.envelopeMalformed
      thread := episode.thread.or env.effectiveThread
      traceId := episode.traceId.or event.traceId
      requestId := episode.requestId.or ((extractRequestLikeId env.structuralPayload).or
        (extractRequestLikeId event.message.toList))
      citations := episode.citations ++ [citation event episode.kind .supportingRecord]
      structuralPayload := appendPayload episode.structuralPayload env.structuralPayload }

/-- The root cause gives the rendering its signature, also where its record is refused. -/
def attachCause (event : ExplorerEvent) (env : ExceptionEnvelope) (signature : Chars)
    (episode : RenderEpisode) : RenderEpisode :=
  { attach event env episode with signature := signature }

/-- More than the gap between two sequences, where the later one is no smaller. -/
def seqFar (event : ExplorerEvent) (episode : RenderEpisode) : Bool :=
  maxAdjacentSeqGap < event.seq.toNat - episode.lastSeq.toNat

def adjacentCompatible (episode : RenderEpisode) (event : ExplorerEvent)
    (env : ExceptionEnvelope) : Bool :=
  if episode.executionKeyConflict || episode.envelopeMalformed || env.failClosedForAttachment then
    false
  else if episode.source ≠ event.source || seqFar event episode then false
  else
    let thread := env.effectiveThread
    if episode.thread.isSome && thread.isSome && episode.thread ≠ thread then false
    else if episode.thread.isSome ≠ thread.isSome then false
    else if episode.wallTime && event.activeTimestampBasis.isWallClock then
      (event.ts - episode.lastTs).natAbs ≤ maxAdjacentWallSeconds
    else true

def isSingleLineExceptionRecord (payload : Chars) : Bool :=
  if 1 < ((lines payload).filter fun line => trim line ≠ []).length then false
  else
    let p := trim payload
    isStackContinuation p || looksLikeExceptionHeaderLine p || isWrapperScaffoldLine p ||
      startsWith "at " p

/-! ## Lanes -/

structure WrapLaneKey where
  source : String
  thread : Option Chars
  deriving DecidableEq

def WrapLaneKey.before (a b : WrapLaneKey) : Bool :=
  a.source < b.source ||
    a.source = b.source &&
      match a.thread, b.thread with
      | _, none => false
      | none, some _ => true
      | some s, some t => s < t

def wrapLaneKey (source : String) (env : ExceptionEnvelope) : WrapLaneKey :=
  ⟨source, env.effectiveThread⟩

/-- What an event does to the open renderings. -/
inductive LaneMove where
  /-- `close_source_lanes`. -/
  | closeSource
  /-- Finish what is open on the lane. -/
  | closeLane
  /-- Finish a rendering that never was open. -/
  | finish (episode : RenderEpisode)
  /-- Open a rendering on the lane. -/
  | start (episode : RenderEpisode)
  | attach
  /-- Attach, and take the signature of the cause. -/
  | attachCause (signature : Chars)
  deriving DecidableEq

/-- The moves of an event whose lane has `lane` open. -/
def laneMoves (lane : Option RenderEpisode) (event : ExplorerEvent) : Exec (List LaneMove) := do
  let env := parseExceptionEnvelope event.message.toList
  let payload := env.structuralPayload
  if env.isStderrStream || isSingleLineExceptionRecord payload then
    let signature := exceptionSignature payload
    let completeStack := hasStackFrame payload && signature.isSome
    let canAttach := lane.any fun o => adjacentCompatible o event env
    if env.failClosedForAttachment then
      match signature with
      | some signature =>
        return [.closeSource, .finish (← newEpisode event env signature .separatelyWrappedRecords)]
      | none => return [.closeSource]
    else
      match signature with
      | some signature =>
        if completeStack then
          return [.closeLane, .finish (← newEpisode event env signature .separatelyWrappedRecords)]
        else if templateLineStartsWithStructuralMarker payload "Caused by:" && canAttach then
          return [.attachCause signature]
        else if canAttach &&
            lane.any (fun o => o.signature = signature || isStackContinuation payload) then
          -- a header starts anew, whether or not its signature is the open one
          if looksLikeExceptionHeaderLine payload then
            return [.closeLane, .start (← newEpisode event env signature .separatelyWrappedRecords)]
          else return [.attach]
        else
          return [.closeLane, .start (← newEpisode event env signature .separatelyWrappedRecords)]
      | none =>
        if canAttach && (isStackContinuation payload || isWrapperScaffoldLine payload) then
          return [.attach]
        else if lane.any (seqFar event) then return [.closeLane]
        else return []
  else if hasStackFrame event.message.toList then
    match exceptionSignature event.message.toList with
    | some signature =>
      return [.closeSource, .finish (← newEpisode event env signature .applicationFullStack)]
    | none => return [.closeSource]
  else return [.closeSource]

structure LaneState where
  episodes : List RenderEpisode
  openWrap : List (WrapLaneKey × RenderEpisode)
  isPartial : Bool
  deriving DecidableEq

namespace LaneState

def start : LaneState := ⟨[], [], false⟩

def finishEpisode (s : LaneState) (episode : RenderEpisode) : LaneState :=
  if s.episodes.length < renderCap then { s with episodes := s.episodes ++ [episode] }
  else { s with isPartial := true }

def finishAll (s : LaneState) (episodes : List RenderEpisode) : LaneState :=
  episodes.foldl finishEpisode s

/-- The lanes that satisfy `p` are closed in the order of their keys. -/
def closeWhere (p : WrapLaneKey → Bool) (s : LaneState) : LaneState :=
  finishAll { s with openWrap := s.openWrap.filter fun entry => !p entry.1 }
    ((s.openWrap.filter fun entry => p entry.1).map Prod.snd)

def apply (event : ExplorerEvent) (s : LaneState) : LaneMove → LaneState :=
  let env := parseExceptionEnvelope event.message.toList
  let lane := wrapLaneKey event.source env
  fun
  | .closeSource => s.closeWhere fun key => key.source = event.source
  | .closeLane => s.closeWhere fun key => key = lane
  | .finish episode => s.finishEpisode episode
  | .start episode => { s with openWrap := put WrapLaneKey.before lane episode s.openWrap }
  | .attach => { s with openWrap := alter lane (Exceptions.attach event env) s.openWrap }
  | .attachCause signature =>
    { s with openWrap := alter lane (Exceptions.attachCause event env signature) s.openWrap }

/-- The rendering open on the lane of the event. -/
def laneOf (s : LaneState) (event : ExplorerEvent) : Option RenderEpisode :=
  get (wrapLaneKey event.source (parseExceptionEnvelope event.message.toList)) s.openWrap

def step (s : LaneState) (event : ExplorerEvent) : Exec LaneState := do
  let moves ← laneMoves (s.laneOf event) event
  return moves.foldl (apply event) s

/-- The lanes that are still open are closed at the end. -/
def close (s : LaneState) : LaneState := s.closeWhere fun _ => true

end LaneState

def scanLanes (events : List ExplorerEvent) : Exec LaneState :=
  events.foldlM LaneState.step LaneState.start

def deriveRenderEpisodes (events : List ExplorerEvent) : Exec (List RenderEpisode × Bool) := do
  let s ← scanLanes events
  return (s.close.episodes, s.close.isPartial)

end ContextDesk.LogAnalysis.Exceptions
