import Mathlib.Algebra.Order.Floor.Ring
import Mathlib.Data.Rat.Floor
import ContextDesk.Lib.Str

/-!
# The template miner

`DrainMiner` assigns every message to a template: `matchOrCreateCancellable` scans the templates
with as many tokens as the message for the most similar one, generalises its pattern where the
message differs, or creates a new template under the two caps. The four maps are hash maps as in
the source; ids, counts and lengths are natural numbers and the similarity is a 32-bit float.

A cancellation flag is a function from the scan position to what the poll there reads, so that a
flag raised during a scan is covered. `DrainMiner.run` is a sequence of calls; beside the miner it
keeps `assigned`, the id and the tokens of every call that returned.
-/

namespace ContextDesk.LogAnalysis

open Lib Lib.Text Lib.Str

namespace Drain

def maxDrainTemplates : Nat := 25000

def maxDrainTemplatesPerLengthBucket : Nat := 2048

abbrev Token := List Char

def wildcard : Token := "<*>".toList

structure TemplateInfo where
  templateId : Nat
  pattern : List Char
  tokenCount : Nat
  count : Nat
  firstSeen : Int
  lastSeen : Int
  severity : Nat
  sample : List Char
  deriving DecidableEq

/-- `CoreError` as the miner raises it; `expect` stands for the panic of a failed `expect`. -/
inductive DrainFault where
  | cancelled
  | policy (message : String)
  | expect (message : String)
  deriving DecidableEq

/-! ## Levels -/

def normalizeLevel (s : List Char) : String :=
  match String.ofList (asciiLower (trim s)) with
  | "trace" | "trc" => "trace"
  | "debug" | "dbg" | "debug1" | "debug2" | "debug3" | "debug4" | "debug5" | "fine" | "finer"
  | "finest" => "debug"
  | "info" | "information" | "informational" | "config" => "info"
  | "notice" => "notice"
  | "log" => "log"
  | "warn" | "warning" => "warn"
  | "error" | "err" | "severe" => "error"
  | "critical" | "crit" => "critical"
  | "alert" => "alert"
  | "fatal" | "panic" => "fatal"
  | "emergency" | "emerg" => "emergency"
  | "" => "unknown"
  | other => other

def levelSeverity (level : List Char) : Nat :=
  match normalizeLevel level with
  | "emergency" | "alert" | "fatal" | "critical" | "panic" => 5
  | "error" => 4
  | "warn" => 3
  | "info" | "notice" | "log" => 2
  | "debug" | "trace" => 1
  | _ => 0

/-! ## Tokens -/

def tokenizeBorrowed (msg : List Char) : List Token :=
  (msg.splitOnP fun c => isWhitespace c || c == ',' || c == ';').filter (· ≠ [])

def looksVariable (tok : Token) : Bool :=
  if tok = wildcard then true
  else
    let digitish := tok.countP Char.isDigit
    let len := (bytes tok).length
    (2 ≤ digitish && len ≤ digitish * 2) || 20 < len

/-- `f32::EPSILON`. -/
def epsilon : Float32 := 1.1920929e-7

/-- The scoring loop from position `i` on, with `same` positions alike so far. -/
def scoreLoop (n need : Nat) : Nat → Nat → List (Token × Token) → Float32
  | _, same, [] => Float32.ofNat same / Float32.ofNat n
  | i, same, (p, m) :: rest =>
    if same + (n - i) < need then Float32.ofNat same / Float32.ofNat n
    else if p = wildcard || p = m || (looksVariable p && looksVariable m) then
      scoreLoop n need (i + 1) (same + 1) rest
    else scoreLoop n need (i + 1) same rest

def tokenSimilarityScore (pat msg : List Token) (threshold : Float32) : Float32 :=
  if pat.length ≠ msg.length || pat.isEmpty then 0.0
  else
    let n := pat.length
    let least := (threshold * Float32.ofNat n - epsilon).ceil
    let need := (if least ≥ 0.0 then least else 0.0).toUInt64.toNat
    scoreLoop n need 0 0 (pat.zip msg)

def tokenParams (pat msg : List Token) : List Token :=
  if pat.length ≠ msg.length then []
  else
    (pat.zip msg).filterMap fun (p, m) =>
      if p = wildcard || (p ≠ m && looksVariable p && looksVariable m) then some m else none

def mergePattern (pat msg : List Token) : List Token :=
  (pat.zip msg).map fun (p, m) => if p = wildcard || p = m then p else wildcard

/-- `join(" ")`. -/
def joinTokens (tokens : List Token) : List Char := [' '].intercalate tokens

end Drain

/-! ## The miner -/

open Drain in
structure DrainMiner where
  depth : Nat
  maxChildren : Nat
  simThreshold : Float32
  nextId : Nat
  byLen : Std.HashMap Nat (List Nat)
  templates : Std.HashMap Nat TemplateInfo
  patternTokens : Std.HashMap Nat (List Token)
  maxTemplates : Nat
  maxPerBucket : Nat

namespace DrainMiner

open Drain

/-- `f32::clamp`, which keeps a NaN. -/
def clamp (x low high : Float32) : Float32 :=
  if x < low then low else if x > high then high else x

def withBounds (depth maxChildren : Nat) (simThreshold : Float32)
    (maxTemplates maxPerBucket : Nat) : DrainMiner where
  depth := max depth 1
  maxChildren := max maxChildren 2
  simThreshold := clamp simThreshold 0.1 1.0
  nextId := 1
  byLen := ∅
  templates := ∅
  patternTokens := ∅
  maxTemplates := max maxTemplates 1
  maxPerBucket := max maxPerBucket 1

def new (depth maxChildren : Nat) (simThreshold : Float32) : DrainMiner :=
  withBounds depth maxChildren simThreshold maxDrainTemplates maxDrainTemplatesPerLengthBucket

/-- The ids of the templates with `len` tokens, in the order of their creation. -/
def bucket (m : DrainMiner) (len : Nat) : List Nat := m.byLen[len]?.getD []

/-- The scan loop at position `scanI`, with the best candidate so far. -/
def scanLoop (m : DrainMiner) (tokens : List Token) (cancel : Option (Nat → Bool)) :
    Nat → Option (Nat × Float32) → List Nat → Except DrainFault (Option (Nat × Float32))
  | _, best, [] => .ok best
  | scanI, best, id :: ids =>
    if 0 < scanI && scanI % 16 = 0 && (cancel.map (· scanI)).getD false then .error .cancelled
    else
      match m.patternTokens[id]? with
      | none => scanLoop m tokens cancel (scanI + 1) best ids
      | some patToks =>
        if patToks.length ≠ tokens.length then scanLoop m tokens cancel (scanI + 1) best ids
        else
          let sim := tokenSimilarityScore patToks tokens m.simThreshold
          if sim ≥ m.simThreshold && (best.map fun b => decide (sim > b.2)).getD true then
            scanLoop m tokens cancel (scanI + 1) (some (id, sim)) ids
          else scanLoop m tokens cancel (scanI + 1) best ids

def scanBestTemplateId (m : DrainMiner) (tokens : List Token) (cancel : Option (Nat → Bool)) :
    Except DrainFault (Option Nat) :=
  match m.byLen[tokens.length]? with
  | none => .ok none
  | some ids => (m.scanLoop tokens cancel 0 none ids).map fun best => best.map Prod.fst

/-- The winner of a scan takes the message in; its pattern becomes `merged`, if there is one. -/
def absorb (m : DrainMiner) (id : Nat) (merged : Option (List Token)) (ts : Int) (sev : Nat) :
    DrainMiner :=
  { m with
    templates :=
      match m.templates[id]? with
      | none => m.templates
      | some t =>
        let t := { t with
          count := t.count + 1, lastSeen := ts, severity := max t.severity sev }
        m.templates.insert id
          (match merged with
          | none => t
          | some p => { t with pattern := joinTokens p, tokenCount := p.length })
    patternTokens :=
      match merged with
      | none => m.patternTokens
      | some p => m.patternTokens.insert id p }

def create (m : DrainMiner) (message : List Char) (tokens : List Token) (ts : Int) (sev : Nat) :
    DrainMiner :=
  let id := m.nextId
  { m with
    nextId := m.nextId + 1
    templates := m.templates.insert id
      { templateId := id, pattern := joinTokens tokens, tokenCount := tokens.length, count := 1,
        firstSeen := ts, lastSeen := ts, severity := sev, sample := message.take 240 }
    patternTokens := m.patternTokens.insert id tokens
    byLen := m.byLen.insert tokens.length (m.bucket tokens.length ++ [id]) }

def matchOrCreateCancellable (m : DrainMiner) (message : List Char) (ts : Int) (level : List Char)
    (cancel : Option (Nat → Bool)) : DrainMiner × Except DrainFault (Nat × List Token) :=
  let tokens := tokenizeBorrowed message
  let sev := levelSeverity level
  match m.scanBestTemplateId tokens cancel with
  | .error e => (m, .error e)
  | .ok (some id) =>
    match m.patternTokens[id]? with
    | none => (m, .error (.expect "matched id always has pattern_tokens"))
    | some patToks =>
      let needsMerge := (patToks.zip tokens).any fun (p, t) => p ≠ wildcard && p ≠ t
      let merged := if needsMerge then some (mergePattern patToks tokens) else none
      (m.absorb id merged ts sev, .ok (id, tokenParams patToks tokens))
  | .ok none =>
    if m.maxTemplates ≤ m.templates.size then
      (m, .error (.policy s!"log template cardinality limit exceeded (max {m.maxTemplates} distinct templates); refusing to create or silently merge a new cluster"))
    else if m.maxPerBucket ≤ (m.bucket tokens.length).length then
      (m, .error (.policy s!"log template length-bucket limit exceeded (max {m.maxPerBucket} templates with {tokens.length} tokens); refusing silent mis-cluster of unique equal-token-count messages"))
    else (m.create message tokens ts sev, .ok (m.nextId, []))

/-- One call of `match_or_create_cancellable`. -/
structure Call where
  message : List Char
  ts : Int
  level : List Char
  cancel : Option (Nat → Bool)

def call (m : DrainMiner) (c : Call) : DrainMiner × Except DrainFault (Nat × List Token) :=
  m.matchOrCreateCancellable c.message c.ts c.level c.cancel

/-- The id and the tokens of a call that returned. -/
def assignment (c : Call) : Except DrainFault (Nat × List Token) → List (Nat × List Token)
  | .ok (id, _) => [(id, tokenizeBorrowed c.message)]
  | .error _ => []

/-- A sequence of calls: the miner, and what the calls that returned were assigned to. -/
def run (m : DrainMiner) (assigned : List (Nat × List Token)) :
    List Call → DrainMiner × List (Nat × List Token)
  | [] => (m, assigned)
  | c :: calls => (m.call c).1.run (assigned ++ assignment c (m.call c).2) calls

end DrainMiner

end ContextDesk.LogAnalysis

/-!
## The arithmetic of the similarity

What the miner does with a similarity is form it as a ratio, round a threshold up to a number of
positions, and compare. `Arithmetic` has these operations: `float32` is the source's, `exact` are
the rational numbers they approximate. `scanBestWith` and `callWith` are the scan and the call over
either; over `float32` they are those of the source (`callWith_float32`).
-/

namespace ContextDesk.LogAnalysis

open Lib.Text

namespace Drain

structure Arithmetic (S : Type) where
  zero : S
  /-- So many positions of so many are alike. -/
  ratio : Nat → Nat → S
  /-- How many positions of so many meet a threshold. -/
  need : S → Nat → Nat
  atLeast : S → S → Bool
  above : S → S → Bool

namespace Arithmetic

def float32 : Arithmetic Float32 where
  zero := 0.0
  ratio same n := Float32.ofNat same / Float32.ofNat n
  need threshold n :=
    let least := (threshold * Float32.ofNat n - epsilon).ceil
    (if least ≥ 0.0 then least else 0.0).toUInt64.toNat
  atLeast a b := a ≥ b
  above a b := a > b

def exact : Arithmetic ℚ where
  zero := 0
  ratio same n := same / n
  need threshold n := ⌈threshold * n - 1 / 2 ^ 23⌉.toNat
  atLeast a b := b ≤ a
  above a b := b < a

end Arithmetic

variable {S : Type} (A : Arithmetic S)

/-- Two tokens at one position count as the same. -/
def alike (p m : Token) : Bool := p = wildcard || p = m || (looksVariable p && looksVariable m)

def scoreWith (n need : Nat) : Nat → Nat → List (Token × Token) → S
  | _, same, [] => A.ratio same n
  | i, same, (p, m) :: rest =>
    if same + (n - i) < need then A.ratio same n
    else if alike p m then scoreWith n need (i + 1) (same + 1) rest
    else scoreWith n need (i + 1) same rest

def similarityWith (pat msg : List Token) (threshold : S) : S :=
  if pat.length ≠ msg.length || pat.isEmpty then A.zero
  else scoreWith A pat.length (A.need threshold pat.length) 0 0 (pat.zip msg)

end Drain

namespace DrainMiner

open Drain

variable {S : Type} (A : Arithmetic S) (threshold : S)

def scanWith (m : DrainMiner) (tokens : List Token) (cancel : Option (Nat → Bool)) :
    Nat → Option (Nat × S) → List Nat → Except DrainFault (Option (Nat × S))
  | _, best, [] => .ok best
  | scanI, best, id :: ids =>
    if 0 < scanI && scanI % 16 = 0 && (cancel.map (· scanI)).getD false then .error .cancelled
    else
      match m.patternTokens[id]? with
      | none => scanWith m tokens cancel (scanI + 1) best ids
      | some patToks =>
        if patToks.length ≠ tokens.length then scanWith m tokens cancel (scanI + 1) best ids
        else
          let sim := similarityWith A patToks tokens threshold
          if A.atLeast sim threshold && (best.map fun b => A.above sim b.2).getD true then
            scanWith m tokens cancel (scanI + 1) (some (id, sim)) ids
          else scanWith m tokens cancel (scanI + 1) best ids

def scanBestWith (m : DrainMiner) (tokens : List Token) (cancel : Option (Nat → Bool)) :
    Except DrainFault (Option Nat) :=
  match m.byLen[tokens.length]? with
  | none => .ok none
  | some ids => (m.scanWith A threshold tokens cancel 0 none ids).map fun best => best.map Prod.fst

/-- What `match_or_create_cancellable` does with the winner of its scan. -/
def afterScan (m : DrainMiner) (c : Call) (best : Except DrainFault (Option Nat)) :
    DrainMiner × Except DrainFault (Nat × List Token) :=
  let tokens := tokenizeBorrowed c.message
  let sev := levelSeverity c.level
  match best with
  | .error e => (m, .error e)
  | .ok (some id) =>
    match m.patternTokens[id]? with
    | none => (m, .error (.expect "matched id always has pattern_tokens"))
    | some patToks =>
      let needsMerge := (patToks.zip tokens).any fun (p, t) => p ≠ wildcard && p ≠ t
      let merged := if needsMerge then some (mergePattern patToks tokens) else none
      (m.absorb id merged c.ts sev, .ok (id, tokenParams patToks tokens))
  | .ok none =>
    if m.maxTemplates ≤ m.templates.size then
      (m, .error (.policy s!"log template cardinality limit exceeded (max {m.maxTemplates} distinct templates); refusing to create or silently merge a new cluster"))
    else if m.maxPerBucket ≤ (m.bucket tokens.length).length then
      (m, .error (.policy s!"log template length-bucket limit exceeded (max {m.maxPerBucket} templates with {tokens.length} tokens); refusing silent mis-cluster of unique equal-token-count messages"))
    else (m.create c.message tokens c.ts sev, .ok (m.nextId, []))

def callWith (m : DrainMiner) (c : Call) : DrainMiner × Except DrainFault (Nat × List Token) :=
  m.afterScan c (m.scanBestWith A threshold (tokenizeBorrowed c.message) c.cancel)

/-! ## The source's arithmetic -/

theorem scoreWith_float32 (n need i same : Nat) (rest : List (Token × Token)) :
    scoreWith .float32 n need i same rest = scoreLoop n need i same rest := by
  induction rest generalizing i same with
  | nil => rfl
  | cons pm rest ih =>
    obtain ⟨p, m⟩ := pm
    unfold scoreWith scoreLoop alike
    rw [ih, ih]
    rfl

theorem scanWith_float32 (m : DrainMiner) (tokens : List Token) (cancel : Option (Nat → Bool))
    (scanI : Nat) (best : Option (Nat × Float32)) (ids : List Nat) :
    m.scanWith .float32 m.simThreshold tokens cancel scanI best ids =
      m.scanLoop tokens cancel scanI best ids := by
  have hscore : ∀ p, similarityWith .float32 p tokens m.simThreshold =
      tokenSimilarityScore p tokens m.simThreshold := by
    intro p
    unfold similarityWith tokenSimilarityScore
    rw [scoreWith_float32]
    rfl
  induction ids generalizing scanI best with
  | nil => rfl
  | cons id ids ih =>
    unfold scanWith scanLoop
    simp only [ih, hscore] <;> rfl

theorem callWith_float32 (m : DrainMiner) (c : Call) :
    m.callWith .float32 m.simThreshold c = m.call c := by
  have hscan : m.scanBestWith .float32 m.simThreshold (tokenizeBorrowed c.message) c.cancel =
      m.scanBestTemplateId (tokenizeBorrowed c.message) c.cancel := by
    unfold scanBestWith scanBestTemplateId
    simp only [scanWith_float32] <;> rfl
  unfold callWith
  rw [hscan]
  rfl

end DrainMiner

end ContextDesk.LogAnalysis
