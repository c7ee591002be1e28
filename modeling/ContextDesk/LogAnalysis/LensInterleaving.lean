import ContextDesk.Lib.Timeline
import ContextDesk.LogAnalysis.LensAuthority

/-!
# Calls that interleave

Publications replace the sidecar, template upserts move the template revision on, and any number
of `trustedSuppressionLens` calls share one cache. `LensSystem` is such a system, one
`LensAction.apply` one step of it: a call is split at each of its readings (`CallStage.next`), so
that anything may happen between two of them.

The system keeps the timeline of its `Moment`s, the pairs of a sidecar and a template analysis that
were current. Each publication gives the sidecar an identity that it never had before.
-/

namespace ContextDesk.LogAnalysis

open Lib
open scoped Lib.WordOrder

/-! ## Moments -/

/-- What `stat` tells about a regular file. -/
structure SidecarStamp where
  len : Nat
  modifiedNs : Option Int
  device : Nat
  inode : Nat
  deriving DecidableEq

inductive SidecarIdentity where
  | absent
  | present (stamp : SidecarStamp)
  | unmeasurable
  deriving DecidableEq

structure SidecarFile where
  identity : SidecarIdentity
  /-- It cannot be opened, read or parsed. -/
  read : Option String
  stored : Option SuppressionDocument

/-- One state of the policy and the template analysis. -/
structure Moment where
  /-- The publications so far. -/
  generation : Nat
  file : SidecarFile
  templates : UInt64 → Option String
  templateRevision : Nat

/-- The readings of a resolution that nothing interrupts. -/
def Moment.readings (m : Moment) (eventRevision : Nat) : LensReadings where
  root := none
  read := m.file.read
  sidecar := m.file.stored
  attempt _ := ⟨m.templateRevision, m.templates, m.templateRevision⟩
  revisionBefore := m.templateRevision
  revisionAfter := m.templateRevision
  eventRevision := eventRevision

/-- The lens of a resolution that nothing interrupts. -/
def freshLens (lib : SuppressionLibrary) (corpusId : String) (m : Moment) (eventRevision : Nat) :
    TrustedSuppressionLens :=
  resolveLens lib corpusId (m.readings eventRevision) m.templateRevision

/-! ## One resolution -/

/-- The points at which a resolution reads shared state. -/
inductive Reading where
  | file
  | before (attempt : Fin maxResolutionAttempts)
  | templates (attempt : Fin maxResolutionAttempts)
  | after (attempt : Fin maxResolutionAttempts)
  | revisionBefore
  | revisionAfter
  | eventRevision
  deriving DecidableEq

/-- All readings, in the order of the source. A resolution that stops early does not use those
that follow. -/
def Reading.script : List Reading :=
  .file :: (List.finRange maxResolutionAttempts).flatMap
    (fun attempt => [.before attempt, .templates attempt, .after attempt]) ++
    [.revisionBefore, .revisionAfter, .eventRevision]

def Reading.read (m : Moment) (eventRevision : Nat) (r : LensReadings) : Reading → LensReadings
  | .file => { r with root := none, read := m.file.read, sidecar := m.file.stored }
  | .before k =>
    { r with
      attempt := Function.update r.attempt k { r.attempt k with before := m.templateRevision } }
  | .templates k =>
    { r with
      attempt := Function.update r.attempt k { r.attempt k with templates := m.templates } }
  | .after k =>
    { r with
      attempt := Function.update r.attempt k { r.attempt k with after := m.templateRevision } }
  | .revisionBefore => { r with revisionBefore := m.templateRevision }
  | .revisionAfter => { r with revisionAfter := m.templateRevision }
  | .eventRevision => { r with eventRevision := eventRevision }

def LensReadings.empty : LensReadings where
  root := none
  read := none
  sidecar := none
  attempt _ := ⟨0, fun _ => none, 0⟩
  revisionBefore := 0
  revisionAfter := 0
  eventRevision := 0

/-! ## Calls and the cache -/

structure CachedSuppressionLens where
  sidecar : SidecarIdentity
  templateAnalysisRevision : Nat
  lens : TrustedSuppressionLens
  deriving DecidableEq

/-- How far a call has come. A call whose lens is settled keeps the time at which it was. -/
inductive CallStage where
  | started
  /-- The sidecar is measured. -/
  | observed (sidecar : SidecarIdentity)
  /-- The template revision is read: both cache keys are known. -/
  | keyed (sidecar : SidecarIdentity) (revision : Nat)
  /-- The cached lens is to be stamped with the event revision. -/
  | hit (settled : Nat) (lens : TrustedSuppressionLens)
  | resolving (sidecar : SidecarIdentity) (revision : Nat) (todo : List Reading) (r : LensReadings)
  | resolved (sidecar : SidecarIdentity) (revision settled : Nat) (lens : TrustedSuppressionLens)
  /-- The sidecar is still the measured one. -/
  | confirmed (sidecar : SidecarIdentity) (revision settled : Nat) (lens : TrustedSuppressionLens)
  /-- The template revision is still the one read. -/
  | storing (sidecar : SidecarIdentity) (revision settled : Nat) (lens : TrustedSuppressionLens)
  | returned (settled : Nat) (lens : TrustedSuppressionLens)

structure LensCall where
  began : Nat
  stage : CallStage

/-- The returned lens and the time at which it was settled. -/
def LensCall.outcome (c : LensCall) : Option (Nat × TrustedSuppressionLens) :=
  match c.stage with
  | .returned settled lens => some (settled, lens)
  | _ => none

structure LensSystem where
  past : List Moment
  now : Moment
  eventRevision : Nat
  cache : Option CachedSuppressionLens
  calls : Nat → Option LensCall

/-- Every moment so far, the current one last. -/
def LensSystem.timeline (s : LensSystem) : List Moment := s.past ++ [s.now]

def LensSystem.time (s : LensSystem) : Nat := s.past.length

/-- `SidecarIdentity::observe`, which may fail to measure. -/
def LensSystem.observe (s : LensSystem) (measured : Bool) : SidecarIdentity :=
  if measured then s.now.file.identity else .unmeasurable

def restampEventRevision (lens : TrustedSuppressionLens) (eventRevision : Nat) :
    TrustedSuppressionLens :=
  if lens.eventRevision = eventRevision then lens
  else { lens with eventRevision := eventRevision }

/-- The cached lens that answers a call with these keys. -/
def cacheHit (cache : Option CachedSuppressionLens) (sidecar : SidecarIdentity) (revision : Nat) :
    Option CachedSuppressionLens :=
  if sidecar = .unmeasurable then none
  else cache.filter fun cached =>
    cached.sidecar = sidecar ∧ cached.templateAnalysisRevision = revision

def CallStage.next (lib : SuppressionLibrary) (corpusId : String) (s : LensSystem)
    (measured : Bool) : CallStage → CallStage
  | .started => .observed (s.observe measured)
  | .observed sidecar => .keyed sidecar s.now.templateRevision
  | .keyed sidecar revision =>
    match cacheHit s.cache sidecar revision with
    | some cached => .hit s.time cached.lens
    | none => .resolving sidecar revision Reading.script .empty
  | .hit settled lens => .returned settled (restampEventRevision lens s.eventRevision)
  | .resolving sidecar revision (reading :: todo) r =>
    .resolving sidecar revision todo (reading.read s.now s.eventRevision r)
  | .resolving sidecar revision [] r =>
    .resolved sidecar revision s.time (resolveLens lib corpusId r revision)
  | .resolved sidecar revision settled lens =>
    if sidecar ≠ .unmeasurable ∧ s.observe measured = sidecar then
      .confirmed sidecar revision settled lens
    else .returned settled lens
  | .confirmed sidecar revision settled lens =>
    if s.now.templateRevision = revision then .storing sidecar revision settled lens
    else .returned settled lens
  | .storing _ _ settled lens => .returned settled lens
  | .returned settled lens => .returned settled lens

def CallStage.cacheAfter (cache : Option CachedSuppressionLens) :
    CallStage → Option CachedSuppressionLens
  | .storing sidecar revision _ lens => some ⟨sidecar, revision, lens⟩
  | _ => cache

/-! ## The system -/

inductive LensAction where
  /-- A call begins. -/
  | start (call : Nat)
  /-- A call takes its next step; a measurement of the sidecar may fail. -/
  | step (call : Nat) (measured : Bool)
  /-- A publication; its stamp is one that the sidecar never had. -/
  | publish (stamp : SidecarStamp) (read : Option String) (stored : SuppressionDocument)
  | upsertTemplates (rows : List (UInt64 × String))
  /-- The event revision moves on. -/
  | appendEvents
  | invalidate

/-- The identities after an upsert; the last row of a template wins. -/
def upsertIdentities (templates : UInt64 → Option String) (rows : List (UInt64 × String)) :
    UInt64 → Option String :=
  rows.foldl (fun templates row => Function.update templates row.1 (some row.2)) templates

def LensSystem.advance (s : LensSystem) (next : Moment) : LensSystem :=
  { s with past := s.timeline, now := next }

def LensAction.apply (lib : SuppressionLibrary) (corpusId : String) (s : LensSystem) :
    LensAction → LensSystem
  | .start call =>
    match s.calls call with
    | some _ => s
    | none => { s with calls := Function.update s.calls call (some ⟨s.time, .started⟩) }
  | .step call measured =>
    match s.calls call with
    | none => s
    | some ⟨began, stage⟩ =>
      { s with
        cache := stage.cacheAfter s.cache
        calls := Function.update s.calls call
          (some ⟨began, stage.next lib corpusId s measured⟩) }
  | .publish stamp read stored =>
    if ∃ m ∈ s.timeline, m.file.identity = .present stamp then s
    else
      s.advance
        { s.now with
          generation := s.now.generation + 1
          file := ⟨.present stamp, read, some stored⟩ }
  | .upsertTemplates rows =>
    if rows.isEmpty then s
    else
      s.advance
        { s.now with
          templates := upsertIdentities s.now.templates rows
          templateRevision := s.now.templateRevision + 1 }
  | .appendEvents => { s with eventRevision := s.eventRevision + 1 }
  | .invalidate => { s with cache := none }

def LensSystem.opened (first : Moment) (eventRevision : Nat) : LensSystem where
  past := []
  now := first
  eventRevision := eventRevision
  cache := none
  calls _ := none

/-- The system after an interleaving of actions. -/
def LensSystem.run (lib : SuppressionLibrary) (corpusId : String) (s : LensSystem)
    (actions : List LensAction) : LensSystem :=
  actions.foldl (fun s action => action.apply lib corpusId s) s

end ContextDesk.LogAnalysis
