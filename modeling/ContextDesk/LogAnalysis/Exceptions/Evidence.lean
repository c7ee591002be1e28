import ContextDesk.LogAnalysis.Exceptions.Renderings

/-!
# Evidence between renderings

What is compared of two physical renderings: the graph of exception types and frames of the payload,
the execution signals, and the distance in time. `chainStderrEvidence` is the evidence that a chain
of application renderings and a wrapped rendering are one occurrence, `duplicateEvidence` the same
for a single pair.
-/

namespace ContextDesk.LogAnalysis.Exceptions

open Lib Lib.Text Lib.Str

def maxDuplicateSeqGap : Nat := 512

def maxDuplicateWallSeconds : Nat := 2

def maxChainWallSeconds : Nat := 5

def maxChainStderrWallSeconds : Nat := 5

inductive ExceptionCorrelationConfidence where
  | uncorrelated
  | strong
  | moderate
  deriving DecidableEq

/-- `Strong` comes first. -/
def ExceptionCorrelationConfidence.rank : ExceptionCorrelationConfidence → Nat
  | strong => 0
  | moderate => 1
  | uncorrelated => 2

def agree {α : Type} [DecidableEq α] : Option α → Option α → Bool
  | some a, some b => a = b
  | _, _ => false

/-! ## Graphs -/

structure ExceptionGraphSummary where
  exceptionTypes : List Chars
  rootDetail : Chars
  rootSignature : Chars
  topFrames : List Chars
  propagationSite : Chars
  complete : Bool
  deriving DecidableEq

def splitSignatureTypeDetail (sig : Chars) : Chars × Chars :=
  match splitOnce ':' sig with
  | some (ty, detail) => (trim ty, trim detail)
  | none => (trim sig, [])

def extractTopFrameKey (line : Chars) : Option Chars :=
  match stripPrefix "at " (trim line) with
  | none => none
  | some rest =>
    let head := trim ((trim rest).takeWhile (· ≠ '('))
    if head = [] then none else some (head.take 160)

/-- The types and the first frame under each of them; `pending` while a type waits for its frame. -/
def graphLines : List Chars → List Chars → List Chars → Bool → List Chars × List Chars
  | [], types, topFrames, _ => (types, topFrames)
  | line :: rest, types, topFrames, pending =>
    match exceptionSignatureLine (trim line) with
    | some sig => graphLines rest (types ++ [(splitSignatureTypeDetail sig).1]) topFrames true
    | none =>
      match if pending then extractTopFrameKey (trim line) else none with
      | some frame => graphLines rest types (topFrames ++ [frame]) false
      | none => graphLines rest types topFrames pending

def deriveExceptionGraph (message fallbackSignature : Chars) : ExceptionGraphSummary :=
  let (types, topFrames) := graphLines (lines message) [] [] false
  let rootSignature :=
    if fallbackSignature = [] then types.getLast?.getD [] else fallbackSignature
  let (rootTy, rootDetail) := splitSignatureTypeDetail rootSignature
  let types := if types = [] ∧ rootTy ≠ [] then [rootTy] else types
  let propagationSite := (topFrames.head?.filter (· ≠ [])).getD
    (if rootSignature = [] then "unknown_site".toList else "sig:".toList ++ rootSignature)
  { exceptionTypes := types
    rootDetail := rootDetail
    rootSignature := rootSignature
    topFrames := topFrames
    propagationSite := propagationSite
    complete := types ≠ [] && topFrames ≠ [] }

def ExceptionRenderingKind.asU8 : ExceptionRenderingKind → Nat
  | applicationFullStack => 0
  | separatelyWrappedRecords => 1

/-- A rendering without a frame has a site of its own. -/
def graphOf (r : RenderEpisode) : ExceptionGraphSummary :=
  let g := deriveExceptionGraph r.structuralPayload r.signature
  let g :=
    if g.exceptionTypes = [] then
      let (ty, detail) := splitSignatureTypeDetail r.signature
      { g with
        exceptionTypes := if ty = [] then [] else [ty]
        rootDetail := detail
        rootSignature := r.signature }
    else g
  if startsWith "sig:" g.propagationSite || g.propagationSite = "unknown_site".toList then
    { g with propagationSite := ("render:" ++ r.source ++ ":" ++ toString r.firstSeq.toNat ++ ":" ++
        toString r.kind.asU8).toList }
  else g

def isTypeSuffix (longer shorter : List Chars) : Bool :=
  if longer.length < shorter.length then false
  else longer.drop (longer.length - shorter.length) = shorter

def graphsStructurallyRelated (a b : ExceptionGraphSummary) : Bool :=
  if a.rootSignature = [] || b.rootSignature = [] then false
  else if a.rootSignature = b.rootSignature then true
  else
    a.exceptionTypes ≠ [] && b.exceptionTypes ≠ [] &&
      (isTypeSuffix a.exceptionTypes b.exceptionTypes ||
        isTypeSuffix b.exceptionTypes a.exceptionTypes)

/-! ## Signals -/

structure TypedExecutionSignals where
  traceId : Option String
  requestId : Option Chars
  host : Option String
  thread : Option Chars
  service : Option String
  source : String
  wallTime : Bool
  firstTs : Int
  lastTs : Int
  executionKeyConflict : Bool
  envelopeMalformed : Bool
  deriving DecidableEq

def signalsFromRendering (r : RenderEpisode) : TypedExecutionSignals where
  traceId := r.traceId.filter (· ≠ "")
  requestId := r.requestId.filter (· ≠ [])
  host := r.host.filter (· ≠ "")
  thread := r.thread.filter (· ≠ [])
  service := r.service.filter (· ≠ "")
  source := r.source
  wallTime := r.wallTime
  firstTs := r.firstTs
  lastTs := r.lastTs
  executionKeyConflict := r.executionKeyConflict
  envelopeMalformed := r.envelopeMalformed

def executionSignalsConflict (a b : TypedExecutionSignals) : Bool :=
  a.executionKeyConflict || b.executionKeyConflict || a.envelopeMalformed || b.envelopeMalformed ||
    differ a.traceId b.traceId || differ a.requestId b.requestId ||
    (a.source = b.source && differ a.thread b.thread) || differ a.host b.host ||
    differ a.service b.service

def matchingGlobalAnchor (a b : TypedExecutionSignals) : Bool :=
  agree a.traceId b.traceId || agree a.requestId b.requestId

def executionConflictCodes (a b : TypedExecutionSignals) : List String :=
  (if a.executionKeyConflict || b.executionKeyConflict then
    ["conflicting_envelope_execution_key"] else []) ++
  (if a.envelopeMalformed || b.envelopeMalformed then ["malformed_execution_envelope"] else []) ++
  (if differ a.traceId b.traceId then ["conflicting_trace_anchor"] else []) ++
  (if differ a.requestId b.requestId then ["conflicting_request_anchor"] else []) ++
  (if a.source = b.source && differ a.thread b.thread then
    ["conflicting_source_scoped_thread"] else []) ++
  (if differ a.host b.host then ["conflicting_host"] else []) ++
  (if differ a.service b.service then ["conflicting_service"] else [])

def sameScopedThreadHost (a b : TypedExecutionSignals) : Bool :=
  agree a.thread b.thread && !differ a.host b.host

/-! ## Time -/

/-- Between intervals whose ends may come in either order. -/
def intervalGap (a0 a1 b0 b1 : Int) : Nat :=
  if max a0 a1 < min b0 b1 then (min b0 b1 - max a0 a1).natAbs
  else if max b0 b1 < min a0 a1 then (min a0 a1 - max b0 b1).natAbs
  else 0

def wallSpanOk (a b : TypedExecutionSignals) (maxSecs : Nat) : Bool :=
  a.wallTime && b.wallTime && intervalGap a.firstTs a.lastTs b.firstTs b.lastTs ≤ maxSecs

def RenderEpisode.low (r : RenderEpisode) : Int := min r.firstTs r.lastTs

def RenderEpisode.high (r : RenderEpisode) : Int := max r.firstTs r.lastTs

def chainWallSpanOk (members : List RenderEpisode) (candidate : RenderEpisode) : Bool :=
  if members = [] then true
  else if !candidate.wallTime || members.any (!·.wallTime) then false
  else
    let lo := members.foldl (fun lo m => min lo m.low) candidate.low
    let hi := members.foldl (fun hi m => max hi m.high) candidate.high
    (hi - lo).natAbs ≤ maxChainWallSeconds

/-- The gap between the sequences of two renderings, in the order in which they stand. -/
def seqGap (left right : RenderEpisode) : Nat :=
  if left.lastSeq ≤ right.firstSeq then right.firstSeq.toNat - left.lastSeq.toNat
  else left.firstSeq.toNat - right.lastSeq.toNat

def axisDistance (left right : RenderEpisode) : Nat :=
  if left.wallTime && right.wallTime then
    intervalGap left.firstTs left.lastTs right.firstTs right.lastTs
  else seqGap left right

/-! ## Evidence -/

/-- Evidence that a chain and a wrapped rendering are one occurrence. -/
def chainStderrEvidence (chain : List RenderEpisode) (wrap : RenderEpisode) :
    Option ExceptionCorrelationConfidence :=
  let wrapSig := signalsFromRendering wrap
  let wrapGraph := graphOf wrap
  if wrap.signature = [] then none
  else if chain.any fun m => executionSignalsConflict (signalsFromRendering m) wrapSig then none
  else
    let exactSig := chain.any fun m =>
      m.signature = wrap.signature || (graphOf m).rootSignature = wrapGraph.rootSignature ||
        (graphOf m).rootSignature = wrap.signature || m.signature = wrapGraph.rootSignature
    let structural := chain.any fun m => graphsStructurallyRelated (graphOf m) wrapGraph
    let matchingRequest := chain.any fun m =>
      agree (signalsFromRendering m).requestId wrapSig.requestId
    let exactAnchor :=
      (chain.any fun m => matchingGlobalAnchor (signalsFromRendering m) wrapSig) || matchingRequest
    let conflictingThreads := chain.any fun m =>
      differ (signalsFromRendering m).thread wrapSig.thread
    let matchingThread := chain.any fun m => agree (signalsFromRendering m).thread wrapSig.thread
    if !(exactSig || matchingRequest || (structural && exactAnchor)) then none
    else if !exactSig && !exactAnchor then none
    else if conflictingThreads && !exactAnchor then none
    else if chain.any (!·.wallTime) || !wrap.wallTime then
      -- records without wall time need an anchor
      if exactAnchor then some .strong else none
    else
      let lo := chain.foldl (fun lo m => min lo m.low) wrap.low
      let hi := chain.foldl (fun hi m => max hi m.high) wrap.high
      let chainLo := ((chain.map RenderEpisode.low).min?).getD lo
      let chainHi := ((chain.map RenderEpisode.high).max?).getD hi
      if maxChainStderrWallSeconds < intervalGap chainLo chainHi wrap.firstTs wrap.lastTs then none
      else if exactAnchor then some .strong
      else if matchingThread && exactSig then some .strong
      else if (chain.any fun m => (signalsFromRendering m).thread.isSome) ||
          wrapSig.thread.isSome then none
      else some .moderate

/-- Conflicted and malformed envelopes have no key. -/
def RenderEpisode.strongExecutionKey (r : RenderEpisode) : Option Chars :=
  if r.executionKeyConflict || r.envelopeMalformed then none
  else
    (((r.requestId.filter (· ≠ [])).map ("req:".toList ++ ·)).or
      ((r.traceId.filter (· ≠ "")).map ("trace:".toList ++ ·.toList))).or
      ((r.thread.filter (· ≠ [])).map ("thread:".toList ++ ·))

def RenderEpisode.strongKeyConflictsWith (left right : RenderEpisode) : Bool :=
  match left.strongExecutionKey, right.strongExecutionKey with
  | some a, some b => a ≠ b && (splitOnce ':' a).map Prod.fst = (splitOnce ':' b).map Prod.fst
  | _, _ => false

/-- Evidence that an application rendering and a wrapped rendering are one occurrence. -/
def duplicateEvidence (left right : RenderEpisode) : Option ExceptionCorrelationConfidence :=
  if left.kind = right.kind then none
  else if left.signature = [] || right.signature = [] then none
  else if left.signature ≠ right.signature then none
  else if maxDuplicateSeqGap < seqGap left right && left.source = right.source then none
  else if differ left.service right.service || differ left.host right.host then none
  else if left.executionKeyConflict || right.executionKeyConflict || left.envelopeMalformed ||
      right.envelopeMalformed then none
  else if differ left.requestId right.requestId || differ left.traceId right.traceId then none
  else if left.strongKeyConflictsWith right then none
  else
    let exactGlobalAnchor :=
      agree left.requestId right.requestId || agree left.traceId right.traceId
    if differ left.thread right.thread && (left.source = right.source || !exactGlobalAnchor) then
      none
    else if !(left.wallTime && right.wallTime) then
      if exactGlobalAnchor then some .strong else none
    else if maxDuplicateWallSeconds <
        intervalGap left.firstTs left.lastTs right.firstTs right.lastTs then none
    else if exactGlobalAnchor then some .strong
    else if agree left.thread right.thread then some .strong
    else if !(left.requestId.isSome || left.traceId.isSome || left.thread.isSome) &&
        !(right.requestId.isSome || right.traceId.isSome || right.thread.isSome) then some .moderate
    else none

end ContextDesk.LogAnalysis.Exceptions
