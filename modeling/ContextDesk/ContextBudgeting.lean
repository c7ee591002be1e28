import ContextDesk.FastTriage.Packet
import Mathlib.Data.List.Sort

/-!
# Packing linked evidence

The evidence blocks of a synthesis request under a budget of characters. Blocks that fit are
joined as they are; otherwise the lines with a citation identity are ranked, deduplicated by their
`seq` and `source`, cut where they have to be, and put back in their order. Sizes are below the
limits of `usize`, and lines below those of `i32`.
-/

namespace ContextDesk

open Lib Lib.Text Lib.Str Lib.ByteIndex

/-- Characters reserved for the footer that discloses omitted evidence. -/
def OMIT_FOOTER_RESERVE : Nat := 240

def MAX_SINGLE_RECORD_BODY_CHARS : Nat := 1200

/-- For the first and the last identity line, so that a huge one cannot starve the other. -/
def MAX_MANDATORY_IDENTITY_CHARS : Nat := 480

structure PackedLinkedEvidence where
  text : List Char
  includedBlocks : Nat
  omittedBlocks : Nat
  includedChars : Nat
  omittedChars : Nat
  identityLinesIncluded : Nat
  identityLinesOmitted : Nat

/-! ## Identities -/

def lineHasCitationIdentity (line : List Char) : Bool :=
  let lower := asciiLower line
  (contains "seq=" lower || contains "\"seq\":" lower || contains "seq\":" lower) &&
    (contains "source=" lower || contains "source\":" lower || contains "\"source\"" lower)

/-- The text in front of the first quote, when there is one. -/
def quoted (quote : Char) (rest : List Char) : Option (List Char) :=
  if quote ∈ rest then some (rest.takeWhile (· ≠ quote)) else none

def fieldValue : List Char → Option (List Char)
  | '"' :: rest => quoted '"' rest
  | '\'' :: rest => quoted '\'' rest
  | rest => some (rest.takeWhile fun c => !(isWhitespace c || c == ',' || c == '\x7d'))

/-- The value behind `key=`, else the one behind a JSON key. -/
def extractFieldValue (line : List Char) (key : String) : Option (List Char) :=
  let lower := asciiLower line
  let start : Option Nat := match seek (startsWith (key ++ "=")) lower with
    | some (front, _) => some (front.length + (key.length + 1))
    | none => match seek (startsWith ("\"" ++ key ++ "\":")) lower with
      | some (front, _) => some (front.length + (key.length + 3))
      | none => none
  (start.bind fun n => fieldValue (trimStart (line.drop n))).filter (· ≠ [])

/-- The `seq` and the `source` of the line, or nothing when one is malformed. -/
def identityKeyFromLine (line : List Char) : List Char :=
  let seq := (extractFieldValue line "seq").getD []
  let source := (extractFieldValue line "source").getD []
  if parseU64 seq = none ∨ source = [] then []
  else "seq=".toList ++ asciiLower seq ++ "|source=".toList ++ asciiLower source

def truncateCharsAtBoundary (s : List Char) (maxChars : Nat) : List Char := s.take maxChars

/-- The line up to its `source=` token. -/
def sourceHead (line : List Char) : Option (List Char) :=
  (seek (startsWith "source=") (asciiLower line)).map fun p =>
    let after := p.1.length + "source=".length
    let rest := line.drop after
    let tokenEnd := match rest with
      | '"' :: stripped =>
        match quoted '"' stripped with
        | some token => after + 1 + token.length + 1
        | none => line.length
      | _ => if rest.any isWhitespace then after + (rest.takeWhile (!isWhitespace ·)).length
          else line.length
    line.take tokenEnd

/-- The line when it fits; else its head up to the source, the start of so many characters, or the
start of four times as many bytes, whichever has the identity first. -/
def truncatePreservingIdentityLine (line : List Char) (maxChars : Nat) : Option (List Char) :=
  if maxChars < 16 then none
  else if line.length ≤ maxChars then some line
  else
    match (sourceHead line).filter fun head =>
      head.length ≤ maxChars && lineHasCitationIdentity head with
    | some head => some head
    | none =>
      let truncated := truncateCharsAtBoundary line maxChars
      if lineHasCitationIdentity truncated then some truncated
      else
        let byBytes := truncateBytes line (4 * maxChars)
        if lineHasCitationIdentity byBytes then some byBytes else none

/-! ## Units -/

/-- A line of a block; `identityKey` is there when the line is an identity. -/
structure EvidenceUnit where
  blockIdx : Nat
  line : List Char
  identityKey : Option (List Char)
  score : Int

def EvidenceUnit.isIdentity (u : EvidenceUnit) : Bool := u.identityKey.isSome

/-- Identities before other lines, shorter ones first; the ends of a block and the identities of
the first and the last block are preferred. -/
def unitScore (nBlocks blockIdx nLines lineI length : Nat) (isIdentity : Bool) : Int :=
  (if isIdentity then 1000 - ((min length 150 : Nat) : Int) else 10 - ((min blockIdx 80 : Nat) : Int)) +
    (if lineI = 0 then 80 else 0) + (if 1 < nLines ∧ lineI + 1 = nLines then 120 else 0) +
    (if 1 < nBlocks ∧ blockIdx + 1 = nBlocks ∧ isIdentity = true then 200 else 0) +
    (if blockIdx = 0 ∧ isIdentity = true then 100 else 0)

/-- The unit of a line, none when it is blank. -/
def unitOf (nBlocks blockIdx nLines lineI : Nat) (rawLine : List Char) : Option EvidenceUnit :=
  let line := trimEnd rawLine
  if line = [] then none
  else
    let rawKey := identityKeyFromLine line
    let isIdentity := lineHasCitationIdentity line && rawKey ≠ []
    some
      { blockIdx, line, identityKey := if isIdentity then some rawKey else none
        score := unitScore nBlocks blockIdx nLines lineI line.length isIdentity }

def blockUnits (nBlocks : Nat) (block : List Char × Nat) : List EvidenceUnit :=
  (lines block.1).zipIdx.filterMap fun line =>
    unitOf nBlocks block.2 (lines block.1).length line.2 line.1

def rawUnits (blocks : List (List Char)) : List EvidenceUnit :=
  blocks.zipIdx.flatMap (blockUnits blocks.length)

def identityIdxs (units : List EvidenceUnit) : List Nat :=
  (units.zipIdx.filter fun u => u.1.isIdentity).map (·.2)

def endIdxs (units : List EvidenceUnit) : List Nat :=
  match identityIdxs units with
  | [] => []
  | [first] => [first]
  | first :: rest => [first, rest.getLastD first]

/-- The units, the first and the last identity in front of all others. -/
def evidenceUnits (blocks : List (List Char)) : List EvidenceUnit :=
  let units := rawUnits blocks
  units.zipIdx.map fun u =>
    if u.2 ∈ endIdxs units then { u.1 with score := u.1.score + 5000 } else u.1

/-! ## Mandatory lines -/

/-- The start of the line that is kept in any case. -/
def cappedLine (line : List Char) : List Char :=
  let byChars := truncateCharsAtBoundary line MAX_MANDATORY_IDENTITY_CHARS
  if lineHasCitationIdentity byChars then byChars
  else (truncatePreservingIdentityLine line MAX_MANDATORY_IDENTITY_CHARS).getD byChars

def lineCost (line : List Char) : Nat := line.length + 1

/-- The mandatory lines with their units, one for an identity. -/
def mandatoryFrom (units : List EvidenceUnit) :
    List Nat → Finset (List Char) → List (Nat × List Char)
  | [], _ => []
  | idx :: idxs, keys =>
    match units[idx]? with
    | none => mandatoryFrom units idxs keys
    | some u =>
      if u.identityKey.any (· ∈ keys) then mandatoryFrom units idxs keys
      else
        let keys := keys ∪ u.identityKey.toFinset
        let capped := cappedLine u.line
        if lineHasCitationIdentity capped then (idx, capped) :: mandatoryFrom units idxs keys
        else mandatoryFrom units idxs keys

def reservedChars (mandatory : List (Nat × List Char)) : Nat :=
  (mandatory.map fun m => lineCost m.2).sum

def shrunkLine (maxLine : Nat) (line : List Char) : List Char :=
  (truncatePreservingIdentityLine line maxLine).getD (truncateCharsAtBoundary line maxLine)

/-- Cut once more when they would take more than half of the body. -/
def shrinkMandatory (bodyBudget : Nat) (mandatory : List (Nat × List Char)) :
    List (Nat × List Char) :=
  if bodyBudget / 2 < reservedChars mandatory ∧ mandatory ≠ [] then
    let scaleBudget := max (bodyBudget / 2) 64
    let maxLine := max (scaleBudget / max mandatory.length 1) 32
    mandatory.map fun m => (m.1, shrunkLine maxLine m.2)
  else mandatory

def mandatoryLines (bodyBudget : Nat) (units : List EvidenceUnit) : List (Nat × List Char) :=
  shrinkMandatory bodyBudget (mandatoryFrom units (endIdxs units) ∅)

/-! ## Filling -/

structure PackState where
  selected : List (Option (List Char))
  usedChars : Nat
  seenIds : Finset (List Char)
  identityIncluded : Nat
  identityOmitted : Nat
  blocksTouched : Finset Nat

def PackState.start (units : List EvidenceUnit) : PackState where
  selected := List.replicate units.length none
  usedChars := 0
  seenIds := ∅
  identityIncluded := 0
  identityOmitted := 0
  blocksTouched := ∅

def placeMandatory (units : List EvidenceUnit) (st : PackState) (m : Nat × List Char) : PackState :=
  { st with
    selected := st.selected.set m.1 (some m.2)
    usedChars := st.usedChars + lineCost m.2
    seenIds := st.seenIds ∪ (units[m.1]?.bind (·.identityKey)).toFinset
    identityIncluded := st.identityIncluded + 1
    blocksTouched := st.blocksTouched ∪ (units[m.1]?.map (·.blockIdx)).toFinset }

/-- What of the unit goes into the rest of the fill budget. -/
def fillCandidate (fillBudget fillUsed : Nat) (u : EvidenceUnit) : Option (List Char) :=
  if fillUsed + lineCost u.line ≤ fillBudget then some u.line
  else if u.isIdentity then
    (truncatePreservingIdentityLine u.line (fillBudget - (fillUsed + 1))).filter fun trimmed =>
      fillUsed + lineCost trimmed ≤ fillBudget
  else
    let room := fillBudget - (fillUsed + 1)
    if room < 48 then none
    else
      let stub := truncateCharsAtBoundary u.line (min room MAX_SINGLE_RECORD_BODY_CHARS)
      if stub.length < 24 then none else some stub

structure FillBudgets where
  body : Nat
  reserved : Nat

/-- The unit is taken, cut or dropped; an identity that has been seen is dropped. -/
def placeUnit (b : FillBudgets) (st : PackState) (idx : Nat) (u : EvidenceUnit) : PackState :=
  if u.identityKey.any (· ∈ st.seenIds) then st
  else
    let st := { st with seenIds := st.seenIds ∪ u.identityKey.toFinset }
    let dropped :=
      { st with
        identityOmitted :=
          if u.isIdentity then st.identityOmitted + 1 else st.identityOmitted }
    let fillUsed := st.usedChars - min b.reserved st.usedChars
    match fillCandidate (b.body - b.reserved) fillUsed u with
    | none => dropped
    | some candidate =>
      if b.body < st.usedChars + lineCost candidate then dropped
      else
        { st with
          selected := st.selected.set idx (some candidate)
          usedChars := st.usedChars + lineCost candidate
          identityIncluded :=
            if u.isIdentity then st.identityIncluded + 1 else st.identityIncluded
          blocksTouched := insert u.blockIdx st.blocksTouched }

def placeUnits (b : FillBudgets) (units : List EvidenceUnit) (st : PackState) : List Nat → PackState
  | [] => st
  | idx :: idxs =>
    match units[idx]? with
    | none => placeUnits b units st idxs
    | some u => placeUnits b units (placeUnit b st idx u) idxs

def scoreAt (units : List EvidenceUnit) (idx : Nat) : Int := (units[idx]?.map (·.score)).getD 0

/-- Higher scores first, then the order of the lines. -/
def rankLe (units : List EvidenceUnit) (a b : Nat) : Prop :=
  scoreAt units b < scoreAt units a ∨ scoreAt units a = scoreAt units b ∧ a ≤ b

instance (units : List EvidenceUnit) : DecidableRel (rankLe units) :=
  fun _ _ => inferInstanceAs (Decidable (_ ∨ _))

/-- The units without the mandatory ones, by rank. -/
def fillOrder (units : List EvidenceUnit) (mandatory : List (Nat × List Char)) : List Nat :=
  ((List.range units.length).filter fun i => !mandatory.any (·.1 == i)).insertionSort (rankLe units)

def packUnits (bodyBudget : Nat) (units : List EvidenceUnit) : PackState :=
  let mandatory := mandatoryLines bodyBudget units
  placeUnits ⟨bodyBudget, reservedChars mandatory⟩ units
    (mandatory.foldl (placeMandatory units) (.start units)) (fillOrder units mandatory)

/-! ## The packer -/

def totalChars (blocks : List (List Char)) : Nat := (blocks.map List.length).sum

def omitFooter (omittedBlocks omittedChars identityOmitted identityIncluded : Nat) : List Char :=
  ("\n[HOST EVIDENCE PACKED] omitted_blocks=" ++ toString omittedBlocks ++ " omitted_chars≈" ++
    toString omittedChars ++ " identity_lines_omitted=" ++ toString identityOmitted ++
    " identity_lines_included=" ++ toString identityIncluded ++
    ". Further deepening must stay bounded — do not re-request the full window.").toList

def bodyBudgetOf (evidenceBudgetChars : Nat) : Nat :=
  evidenceBudgetChars - min OMIT_FOOTER_RESERVE (evidenceBudgetChars / 4)

def keptLines (blocks : List (List Char)) (evidenceBudgetChars : Nat) : List (List Char) :=
  (packUnits (bodyBudgetOf evidenceBudgetChars) (evidenceUnits blocks)).selected.filterMap id

/-- The disclosure of what is omitted, when something is and there is room for it. -/
def withFooter (evidenceBudgetChars omittedBlocks omittedChars identityOmitted identityIncluded : Nat)
    (text : List Char) : List Char :=
  let room := evidenceBudgetChars - text.length
  if (0 < omittedBlocks ∨ 0 < omittedChars ∨ 0 < identityOmitted) ∧ 32 < room then
    text ++ truncateCharsAtBoundary
      (omitFooter omittedBlocks omittedChars identityOmitted identityIncluded) room
  else text

def hardCap (evidenceBudgetChars : Nat) (text : List Char) : List Char :=
  if evidenceBudgetChars < text.length then truncateCharsAtBoundary text evidenceBudgetChars
  else text

def packRanked (blocks : List (List Char)) (evidenceBudgetChars : Nat) : PackedLinkedEvidence :=
  let units := evidenceUnits blocks
  let st := packUnits (bodyBudgetOf evidenceBudgetChars) units
  let text := ['\n'].intercalate (keptLines blocks evidenceBudgetChars)
  let includedChars := text.length
  let omittedChars := totalChars blocks - includedChars
  let includedBlocks := st.blocksTouched.card
  let omittedBlocks := blocks.length - includedBlocks
  let totalIdentity := (units.filter (·.isIdentity)).length
  let identityOmitted := max st.identityOmitted (totalIdentity - st.identityIncluded)
  { text := hardCap evidenceBudgetChars
      (withFooter evidenceBudgetChars omittedBlocks omittedChars identityOmitted
        st.identityIncluded text)
    includedBlocks, omittedBlocks, includedChars, omittedChars
    identityLinesIncluded := st.identityIncluded, identityLinesOmitted := identityOmitted }

def packLinkedEvidenceBlocks (blocks : List (List Char)) (evidenceBudgetChars : Nat) :
    PackedLinkedEvidence :=
  if blocks = [] ∨ evidenceBudgetChars = 0 then
    { text := [], includedBlocks := 0, omittedBlocks := blocks.length, includedChars := 0
      omittedChars := totalChars blocks, identityLinesIncluded := 0, identityLinesOmitted := 0 }
  else if totalChars blocks ≤ evidenceBudgetChars then
    let text := ['\n', '\n'].intercalate blocks
    { text, includedBlocks := blocks.length, omittedBlocks := 0
      includedChars := totalChars blocks, omittedChars := 0
      identityLinesIncluded := ((lines text).filter lineHasCitationIdentity).length
      identityLinesOmitted := 0 }
  else packRanked blocks evidenceBudgetChars

/-! ## The budget -/

theorem length_intercalate (sep : List Char) (blocks : List (List Char)) :
    (sep.intercalate blocks).length = totalChars blocks + sep.length * (blocks.length - 1) := by
  induction blocks with
  | nil => simp [List.intercalate, totalChars]
  | cons block blocks ih =>
    cases blocks with
    | nil => simp [List.intercalate, totalChars]
    | cons next blocks =>
      simp only [totalChars, List.intercalate, List.intersperse_cons_cons, List.flatten_cons,
        List.length_append, List.map_cons, List.sum_cons, List.length_cons,
        Nat.add_sub_cancel] at ih ⊢
      rw [ih, Nat.mul_succ]
      omega

theorem length_hardCap_le (evidenceBudgetChars : Nat) (text : List Char) :
    (hardCap evidenceBudgetChars text).length ≤ evidenceBudgetChars := by
  unfold hardCap
  split
  · exact List.length_take_le _ _
  · omega

/-- The packed text is within the budget, unless the blocks fit without their separators and not
with them. -/
theorem packed_evidence_fits_iff (blocks : List (List Char)) (evidenceBudgetChars : Nat) :
    (packLinkedEvidenceBlocks blocks evidenceBudgetChars).text.length ≤ evidenceBudgetChars ↔
      blocks = [] ∨ evidenceBudgetChars = 0 ∨ evidenceBudgetChars < totalChars blocks ∨
        totalChars blocks + 2 * (blocks.length - 1) ≤ evidenceBudgetChars := by
  unfold packLinkedEvidenceBlocks
  split
  · rename_i hnothing
    exact iff_of_true (Nat.zero_le _) (hnothing.imp_right Or.inl)
  · rename_i hsome
    rw [not_or] at hsome
    split
    · rename_i hfits
      rw [length_intercalate]
      simp [hsome.1, hsome.2, Nat.not_lt.mpr hfits]
    · rename_i hover
      exact iff_of_true (length_hardCap_le _ _) (.inr (.inr (.inl (Nat.lt_of_not_le hover))))

/-- Two blocks of one character, and a budget for both but not for the separator. -/
theorem separators_over_budget :
    ¬ (packLinkedEvidenceBlocks [['a'], ['b']] 2).text.length ≤ 2 := by decide

end ContextDesk
