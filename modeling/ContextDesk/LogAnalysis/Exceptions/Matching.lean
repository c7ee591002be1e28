import ContextDesk.Lib.Augment
import ContextDesk.Lib.Ties
import ContextDesk.LogAnalysis.Exceptions.Evidence

/-!
# Matching renderings

`correlate` groups the renderings in four passes: application renderings grow into propagation
chains, each chain is matched with the one wrapped rendering that is left to it alone, chains of
several renderings without a partner form a group, and what is left is paired by a maximum matching;
a rendering that no pass took stands alone. A rendering is an index into the list, so an index is
never out of range.
-/

namespace ContextDesk.LogAnalysis.Exceptions

open Lib

section

variable (renderings : List RenderEpisode)

abbrev Idx := Fin renderings.length

variable {renderings}

def episode (i : Idx renderings) : RenderEpisode := renderings.get i

def episodesOf (is : List (Idx renderings)) : List RenderEpisode := is.map episode

def signals (i : Idx renderings) : TypedExecutionSignals := signalsFromRendering (episode i)

def graph (i : Idx renderings) : ExceptionGraphSummary := graphOf (episode i)

def earlierKey (i : Idx renderings) : Int ×ₗ ℕ ×ₗ String ×ₗ ℕ :=
  toLex ((episode i).firstTs, toLex ((episode i).firstSeq.toNat, toLex ((episode i).source, i.val)))

variable (renderings) in
def ofKind (kind : ExceptionRenderingKind) : List (Idx renderings) :=
  sortBy earlierKey ((List.finRange renderings.length).filter fun i => (episode i).kind = kind)

variable (renderings) in
def appIdxs : List (Idx renderings) := ofKind renderings .applicationFullStack

variable (renderings) in
def wrapIdxs : List (Idx renderings) := ofKind renderings .separatelyWrappedRecords

/-! ## Propagation chains -/

inductive LinkConfidence where
  | exactExecutionAnchor
  | strongMultiSignal
  deriving DecidableEq

/-- The members of the anchor component of `seed` have different sites. -/
def exactAnchorComponentIsUnique (seed : Idx renderings) : Bool :=
  let members := (appIdxs renderings).filter fun candidate =>
    !executionSignalsConflict (signals seed) (signals candidate) &&
      matchingGlobalAnchor (signals seed) (signals candidate) &&
      graphsStructurallyRelated (graph seed) (graph candidate) &&
      !((episode seed).wallTime && (episode candidate).wallTime &&
        !wallSpanOk (signals seed) (signals candidate) maxChainWallSeconds)
  (members.map fun i => (graph i).propagationSite).Nodup

/-- How `other` may extend the chain. -/
def link (chain : List (Idx renderings)) (chainTrace : Option String) (componentUnique : Bool)
    (other : Idx renderings) : Option LinkConfidence :=
  let allWall := (chain.all fun m => (episode m).wallTime) && (episode other).wallTime
  let exactAnchor := chain.any fun m => matchingGlobalAnchor (signals m) (signals other)
  if chain.any fun m => executionSignalsConflict (signals m) (signals other) then none
  else if differ chainTrace (signals other).traceId then none
  else if !chain.any fun m => graphsStructurallyRelated (graph m) (graph other) then none
  else if (graph other).propagationSite ∈ chain.map fun m => (graph m).propagationSite then none
  else if exactAnchor && !componentUnique then none
  else if !allWall && !exactAnchor then none
  else if allWall && !chainWallSpanOk (episodesOf chain) (episode other) then none
  else if exactAnchor then some .exactExecutionAnchor
  else if allWall && chain.any fun m => sameScopedThreadHost (signals m) (signals other) then
    some .strongMultiSignal
  else if allWall && chain.any fun m => agree (signals m).thread (signals other).thread then
    some .strongMultiSignal
  else none

/-- Other free renderings that could claim `cand`. -/
def countRivalChainsForApp (cand : Idx renderings) (chain free : List (Idx renderings)) : Nat :=
  free.countP fun other =>
    !(other = cand || other ∈ chain) &&
      !executionSignalsConflict (signals cand) (signals other) &&
      graphsStructurallyRelated (graph cand) (graph other) &&
      (matchingGlobalAnchor (signals cand) (signals other) ||
        (episode cand).wallTime && (episode other).wallTime &&
          sameScopedThreadHost (signals cand) (signals other) &&
          wallSpanOk (signals cand) (signals other) maxChainWallSeconds)

/-- The free renderings that may extend the chain, with those among them that must. -/
def chainCandidates (chain : List (Idx renderings)) (chainTrace : Option String)
    (componentUnique : Bool) (free : List (Idx renderings)) :
    List (Idx renderings × LinkConfidence) :=
  free.filterMap fun other =>
    (link chain chainTrace componentUnique other).map fun conf => (other, conf)

def forcedCandidates (chain free : List (Idx renderings))
    (candidates : List (Idx renderings × LinkConfidence)) :
    List (Idx renderings × LinkConfidence) :=
  candidates.filter fun c =>
    c.2 = .exactExecutionAnchor || countRivalChainsForApp c.1 chain free = 0

def forcedKey (c : Idx renderings × LinkConfidence) : Int ×ₗ ℕ ×ₗ ℕ :=
  toLex ((episode c.1).firstTs, toLex ((episode c.1).firstSeq.toNat, c.1.val))

/-- The chain with all that joins it, the renderings left free, and how many choices were ambiguous.
Every turn takes a free rendering, so their number is enough fuel. -/
def growChain (componentUnique : Bool) :
    Nat → List (Idx renderings) → Option String → List (Idx renderings) →
      List (Idx renderings) × List (Idx renderings) × Nat
  | 0, chain, _, free => (chain, free, 0)
  | fuel + 1, chain, chainTrace, free =>
    let candidates := chainCandidates chain chainTrace componentUnique free
    match sortBy forcedKey (forcedCandidates chain free candidates) with
    | [] => (chain, free, if 1 < candidates.length then 1 else 0)
    | (pick, _) :: _ =>
      growChain componentUnique fuel (chain ++ [pick]) (chainTrace.or (signals pick).traceId)
        (free.filter (· ≠ pick))

structure ChainState (renderings : List RenderEpisode) where
  free : List (Idx renderings)
  chains : List (List (Idx renderings))
  ambiguousComponents : Nat

def seedChain (s : ChainState renderings) (seed : Idx renderings) : ChainState renderings :=
  if seed ∉ s.free then s
  else
    let componentUnique := exactAnchorComponentIsUnique seed
    let free := s.free.filter (· ≠ seed)
    let (chain, free, ambiguous) :=
      growChain componentUnique free.length [seed] (signals seed).traceId free
    { free := free
      chains := s.chains ++ [chain]
      ambiguousComponents :=
        s.ambiguousComponents + (if componentUnique then 0 else 1) + ambiguous }

variable (renderings) in
def buildChains : ChainState renderings :=
  (appIdxs renderings).foldl seedChain ⟨appIdxs renderings, [], 0⟩

/-! ## Chains and wrapped renderings -/

structure CorrelationGroup (renderings : List RenderEpisode) where
  signature : Chars
  members : List (Idx renderings)
  confidence : ExceptionCorrelationConfidence
  deriving DecidableEq

/-- A chain at its place among the chains, with the wrapped renderings it may be matched with. -/
structure ChainEdges (renderings : List RenderEpisode) where
  place : Nat
  chain : List (Idx renderings)
  edges : List (Idx renderings × ExceptionCorrelationConfidence)

def edgeKey (e : Idx renderings × ExceptionCorrelationConfidence) : ℕ ×ₗ ℕ ×ₗ ℕ :=
  toLex (e.2.rank, toLex ((episode e.1).firstSeq.toNat, e.1.val))

variable (renderings) in
def chainEdges (chains : List (List (Idx renderings))) : List (ChainEdges renderings) :=
  chains.zipIdx.map fun (chain, place) =>
    ⟨place, chain, sortBy edgeKey ((wrapIdxs renderings).filterMap fun w =>
      (chainStderrEvidence (episodesOf chain) (episode w)).map fun conf => (w, conf))⟩

/-- The first sequence of the chain, then its place. -/
def chainOrderKey (c : ChainEdges renderings) : ℕ ×ₗ ℕ :=
  toLex (((c.chain.map fun i => (episode i).firstSeq.toNat).min?).getD 0, c.place)

def ChainEdges.lists (c : ChainEdges renderings) (w : Idx renderings) : Bool :=
  c.edges.any fun e => e.1 = w

structure MatchState (renderings : List RenderEpisode) where
  usedWrap : List (Idx renderings)
  matched : List Nat
  groups : List (CorrelationGroup renderings)
  ambiguous : Bool
  ambiguousComponents : Nat

/-- No other unmatched chain lists the wrapped rendering. -/
def leftAlone (order : List (ChainEdges renderings)) (s : MatchState renderings)
    (c : ChainEdges renderings) (w : Idx renderings) : Bool :=
  order.countP (fun other =>
    !(other.place = c.place || other.place ∈ s.matched) && other.lists w) = 0

def uniquePartners (order : List (ChainEdges renderings)) (s : MatchState renderings)
    (c : ChainEdges renderings) : List (Idx renderings × ExceptionCorrelationConfidence) :=
  c.edges.filter fun e => e.1 ∉ s.usedWrap && leftAlone order s c e.1

/-- The signature of the wrapped rendering, or else of the last member. -/
def episodeSignatureForGroup (group : List RenderEpisode) (chain : List (Idx renderings)) : Chars :=
  let fallback := (group.getLast?.map (·.signature)).getD []
  match (group.find? fun r => r.kind = .separatelyWrappedRecords).filter (·.signature ≠ []) with
  | some w => w.signature
  | none =>
    match chain.getLast? with
    | some last => if (graph last).rootSignature = [] then fallback else (graph last).rootSignature
    | none => fallback

def matchChain (order : List (ChainEdges renderings)) (s : MatchState renderings)
    (c : ChainEdges renderings) : MatchState renderings :=
  match uniquePartners order s c with
  | [] => s
  | [(w, conf)] =>
    if (c.edges.filter fun e => e.1 ∉ s.usedWrap && e.1 ≠ w && leftAlone order s c e.1) ≠ [] then
      { s with ambiguous := true, ambiguousComponents := s.ambiguousComponents + 1 }
    else if conf = .uncorrelated then s
    else
      let members := c.chain ++ [w]
      { s with
        usedWrap := w :: s.usedWrap
        matched := c.place :: s.matched
        groups := s.groups ++
          [⟨episodeSignatureForGroup (episodesOf members) c.chain, members, conf⟩] }
  | _ => { s with ambiguous := true, ambiguousComponents := s.ambiguousComponents + 1 }

/-- Chains with several partners, and the first wrapped rendering with several chains. -/
def edgeAmbiguities (edges : List (ChainEdges renderings)) : Nat :=
  edges.countP (fun c => 2 ≤ c.edges.length) +
    if (List.finRange renderings.length).any fun w =>
      2 ≤ (edges.map fun c => c.edges.countP fun e => e.1 = w).sum then 1 else 0

/-- Chains of several renderings that no wrapped rendering was matched with. -/
def multiApplicationGroups (edges : List (ChainEdges renderings)) (matched : List Nat) :
    List (CorrelationGroup renderings) :=
  (edges.filter fun c => c.place ∉ matched && 1 < c.chain.length).map fun c =>
    ⟨((episodesOf c.chain).getLast?.map (·.signature)).getD [], c.chain, .moderate⟩

/-! ## Pairs -/

structure DualEdge (renderings : List RenderEpisode) where
  wrap : Idx renderings
  distance : Nat
  confidence : ExceptionCorrelationConfidence

def dualKey (e : DualEdge renderings) : ℕ ×ₗ ℕ ×ₗ ℕ ×ₗ String ×ₗ ℕ :=
  toLex (e.confidence.rank, toLex (e.distance, toLex ((episode e.wrap).firstSeq.toNat,
    toLex ((episode e.wrap).source, e.wrap.val))))

def dualEdges (wraps : List (Idx renderings)) (app : Idx renderings) : List (DualEdge renderings) :=
  sortBy dualKey (wraps.filterMap fun w =>
    (duplicateEvidence (episode app) (episode w)).map fun conf =>
      ⟨w, axisDistance (episode app) (episode w), conf⟩)

/-- `try_kuhn` from every application rendering in turn: the partner of each wrapped one. A search
tries an application rendering once, so their number is depth enough. -/
def kuhn (adj : Idx renderings → List (DualEdge renderings)) (apps : List (Idx renderings)) :
    Idx renderings → Option (Idx renderings) :=
  Augment.search adj DualEdge.wrap (apps.length + 1) apps

def degreesAllowAlternateMaxMatchings (adj : List (List (DualEdge renderings))) : Bool :=
  adj.any (fun edges => 2 ≤ edges.length) ||
    (List.finRange renderings.length).any fun w =>
      2 ≤ (adj.flatMap fun edges => edges.filter fun e => e.wrap = w).length

def bipartiteUniqueDuals (apps wraps : List (Idx renderings)) :
    List (Idx renderings × Idx renderings × ExceptionCorrelationConfidence) × Bool :=
  let adj := dualEdges wraps
  let partner := kuhn adj apps
  (wraps.filterMap fun w => (partner w).map fun a =>
    (a, w, (((adj a).find? fun e => e.wrap = w).map (·.confidence)).getD .moderate),
    degreesAllowAlternateMaxMatchings (apps.map adj))

def dualGroup (pair : Idx renderings × Idx renderings × ExceptionCorrelationConfidence) :
    CorrelationGroup renderings :=
  ⟨(episode pair.1).signature, [pair.1, pair.2.1], pair.2.2⟩

/-! ## All passes -/

def paired (groups : List (CorrelationGroup renderings)) : List (Idx renderings) :=
  groups.flatMap (·.members)

structure Correlation (renderings : List RenderEpisode) where
  groups : List (CorrelationGroup renderings)
  unpaired : Nat
  ambiguous : Bool
  ambiguousComponents : Nat
  chains : Nat

/-- The renderings of a kind that no group has, by their places. -/
def remaining (kind : ExceptionRenderingKind) (groups : List (CorrelationGroup renderings)) :
    List (Idx renderings) :=
  (List.finRange renderings.length).filter fun i => (episode i).kind = kind && i ∉ paired groups

variable (renderings) in
def correlate : Correlation renderings :=
  let built := buildChains renderings
  let edges := chainEdges renderings built.chains
  let ambiguities := edgeAmbiguities edges
  let order := sortBy chainOrderKey edges
  let matched := order.foldl (matchChain order)
    ⟨[], [], [], 0 < built.ambiguousComponents || 0 < ambiguities,
      built.ambiguousComponents + ambiguities⟩
  let chained := matched.groups ++ multiApplicationGroups edges matched.matched
  let (pairs, dualAmbig) := bipartiteUniqueDuals (remaining .applicationFullStack chained)
    (remaining .separatelyWrappedRecords chained)
  let joined := chained ++ (pairs.filter fun p => p.2.2 ≠ .uncorrelated).map dualGroup
  let alone := (List.finRange renderings.length).filter fun i => i ∉ paired joined
  { groups := joined ++ alone.map fun i => ⟨(episode i).signature, [i], .uncorrelated⟩
    unpaired := alone.length
    ambiguous := matched.ambiguous || dualAmbig
    ambiguousComponents := matched.ambiguousComponents + if dualAmbig then 1 else 0
    chains := built.chains.length }

end

end ContextDesk.LogAnalysis.Exceptions
