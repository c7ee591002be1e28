import ContextDesk.EvidenceLedger

/-!
# Fast-triage packets

A packet is built from a ledger and the host's neighborhood policy. Its id is the hash of the bytes
`packetPreimage`: texts behind their length, numbers of eight bytes, the rows behind their number.
`packetPreimage_inj` reads all of it back. `classify` stands for the neighborhood classifier, which
gives each row its category.
-/

namespace ContextDesk

open Lib Lib.Text Lib.Str Lib.Utf8

def FAST_TRIAGE_PACKET_SCHEMA_V1 : String := "contextdesk.fast_triage.packet.v1"

inductive FastTriageEvidenceScope where
  | candidate
  | independent
  deriving DecidableEq

inductive FastTriageClockCompatibility where
  | resolvedComparable
  | orderOnly
  deriving DecidableEq

inductive FastTriageEvidenceCategory where
  | focus
  | precedingSameSource
  | followingSameSource
  | crossSourceTemporal
  | traceLinked
  | propagation
  | independentNoise
  deriving DecidableEq

def FastTriageEvidenceScope.asStr : FastTriageEvidenceScope → String
  | .candidate => "candidate"
  | .independent => "independent"

def FastTriageClockCompatibility.asStr : FastTriageClockCompatibility → String
  | .resolvedComparable => "resolved_comparable"
  | .orderOnly => "order_only"

def FastTriageEvidenceCategory.asStr : FastTriageEvidenceCategory → String
  | .focus => "focus"
  | .precedingSameSource => "preceding_same_source"
  | .followingSameSource => "following_same_source"
  | .crossSourceTemporal => "cross_source_temporal"
  | .traceLinked => "trace_linked"
  | .propagation => "propagation"
  | .independentNoise => "independent_noise"

def evidenceRoleLabel : EvidenceRole → String
  | .cause => "initiating_cause"
  | .supporting => "supporting_evidence"
  | .symptom => "downstream_symptom"
  | .neutral => "unclassified"

structure FastTriageNeighborhoodBudget where
  sameSourceRadius : UInt64
  crossSourceRadius : UInt64
  maxContextRows : UInt64
  deriving DecidableEq

structure FastTriagePacketRow where
  evidenceId : String
  candidateId : String
  role : EvidenceRole
  scope : FastTriageEvidenceScope
  chronologyOrdinal : Option UInt64
  contextCategory : FastTriageEvidenceCategory
  deriving DecidableEq

/-! ## The identity of a packet -/

/-- `field`: the bytes of a text behind their number. -/
def textField (s : String) : List UInt8 := sized (leBytes 8) (textBytes s)

def wordBytes (n : UInt64) : List UInt8 := leBytes 8 n.toNat

def flagBytes (flag : Bool) : List UInt8 := [if flag then 1 else 0]

def ordinalBytes : Option UInt64 → List UInt8
  | some ordinal => 1 :: wordBytes ordinal
  | none => [0]

def FastTriagePacketRow.bytes (row : FastTriagePacketRow) : List UInt8 :=
  textField row.evidenceId ++ textField row.candidateId ++
    textField (evidenceRoleLabel row.role) ++ textField row.scope.asStr ++
    textField row.contextCategory.asStr ++ ordinalBytes row.chronologyOrdinal

/-- The bytes that the packet identity hashes. -/
def packetPreimage (binding : AnswerBindingV1) (rows : List FastTriagePacketRow)
    (independentCandidateId : Option String) (timelineComplete : Bool)
    (clock : FastTriageClockCompatibility) (budget : FastTriageNeighborhoodBudget) : List UInt8 :=
  textField FAST_TRIAGE_PACKET_SCHEMA_V1 ++ textField binding.sessionId ++
    textField binding.turnId ++ textField binding.corpusId ++ textField binding.ledgerDigest ++
    binding.revision.bytes ++ textField (independentCandidateId.getD "") ++
    flagBytes timelineComplete ++ textField clock.asStr ++
    wordBytes budget.sameSourceRadius ++ wordBytes budget.crossSourceRadius ++
    wordBytes budget.maxContextRows ++
    (leBytes 8 rows.length ++ rows.flatMap FastTriagePacketRow.bytes)

def packetIdentity (sha256Hex : List UInt8 → String) (ledger : HostEvidenceLedger)
    (rows : List FastTriagePacketRow) (independentCandidateId : Option String)
    (timelineComplete : Bool) (clock : FastTriageClockCompatibility)
    (budget : FastTriageNeighborhoodBudget) : String :=
  sha256Hex (packetPreimage ledger.binding rows independentCandidateId timelineComplete clock
    budget)

/-! ## Building a packet -/

structure NeighborhoodRow where
  evidenceId : String
  candidateId : String
  sourceLabel : String
  scope : FastTriageEvidenceScope
  chronologyOrdinal : Option UInt64
  deriving DecidableEq

structure FastTriagePacketInputs where
  ledger : HostEvidenceLedger
  independentCandidateId : Option String
  timelineComplete : Bool
  clock : FastTriageClockCompatibility
  traceCorrelatedCandidates : List String
  neighborhood : FastTriageNeighborhoodBudget

structure FastTriagePacketV1 where
  ledger : HostEvidenceLedger
  rows : List FastTriagePacketRow
  independentCandidateId : Option String
  timelineComplete : Bool
  clock : FastTriageClockCompatibility
  packetId : String
  deriving DecidableEq

/-- `parse` for `u64`: digits, perhaps behind a plus sign. -/
def parseU64 (l : List Char) : Option UInt64 :=
  let digits := (stripStart '+' l).getD l
  if digits.isEmpty || !digits.all Char.isDigit then none
  else
    let n := digits.foldl (fun n c => 10 * n + (c.toNat - '0'.toNat)) 0
    if n < 2 ^ 64 then some (UInt64.ofNat n) else none

def ordinalOf (locator : String) : Option UInt64 :=
  if startsWith "seq=" locator.toList then parseU64 (trim (locator.toList.drop 4)) else none

def scopeOf (independentCandidateId : Option String) (candidateId : String) :
    FastTriageEvidenceScope :=
  if independentCandidateId = some candidateId then .independent else .candidate

def independentId (id : Option String) : Option String :=
  (id.map fun s => String.ofList (trim s.toList)).filter fun s => s ≠ ""

abbrev NeighborhoodClassifier := List NeighborhoodRow → List String →
  FastTriageClockCompatibility → FastTriageNeighborhoodBudget →
    String → Option FastTriageEvidenceCategory

def FastTriagePacketV1.build (sha256Hex : List UInt8 → String) (classify : NeighborhoodClassifier)
    (inputs : FastTriagePacketInputs) : FastTriagePacketV1 :=
  let independent := independentId inputs.independentCandidateId
  let category := classify (inputs.ledger.entries.map fun entry =>
      { evidenceId := entry.evidenceId, candidateId := entry.candidateId,
        sourceLabel := entry.sourceLabel, scope := scopeOf independent entry.candidateId,
        chronologyOrdinal := ordinalOf entry.locator })
    inputs.traceCorrelatedCandidates inputs.clock inputs.neighborhood
  let rows := inputs.ledger.entries.map fun entry =>
    { evidenceId := entry.evidenceId, candidateId := entry.candidateId, role := entry.role,
      scope := scopeOf independent entry.candidateId,
      chronologyOrdinal := ordinalOf entry.locator,
      contextCategory := (category entry.evidenceId).getD .independentNoise }
  { ledger := inputs.ledger, rows := rows, independentCandidateId := independent,
    timelineComplete := inputs.timelineComplete, clock := inputs.clock,
    packetId := packetIdentity sha256Hex inputs.ledger rows independent inputs.timelineComplete
      inputs.clock inputs.neighborhood }

/-! ## The bytes are read back -/

/-- A text whose bytes are counted by 64 bits, as every text in memory is. -/
def TextFits (s : String) : Prop := (textBytes s).length < 2 ^ 64

def FastTriagePacketRow.Fits (row : FastTriagePacketRow) : Prop :=
  TextFits row.evidenceId ∧ TextFits row.candidateId

def AnswerBindingV1.Fits (binding : AnswerBindingV1) : Prop :=
  TextFits binding.sessionId ∧ TextFits binding.turnId ∧ TextFits binding.corpusId ∧
    TextFits binding.ledgerDigest

def RowsFit (rows : List FastTriagePacketRow) : Prop :=
  rows.length < 2 ^ 64 ∧ ∀ row ∈ rows, row.Fits

/-- The id is absent or not blank, and its bytes are counted by 64 bits. -/
def IndependentOk (id : Option String) : Prop :=
  ∀ s, id = some s → trim s.toList ≠ [] ∧ TextFits s

theorem textField_delimited : Delimited TextFits textField :=
  (Delimited.sized (leBytes_delimited 8)).comap (fun _ h => h)
    fun _ _ _ _ h => textBytes_inj h

theorem wordBytes_delimited : Delimited (fun _ => True) wordBytes :=
  (leBytes_delimited 8).comap (fun n _ => n.toNat_lt) fun _ _ _ _ h => UInt64.toNat_inj.mp h

theorem label_delimited {α : Type} {label : α → String} (hfits : ∀ a, TextFits (label a))
    (hinj : Function.Injective label) : Delimited (fun _ => True) fun a => textField (label a) :=
  textField_delimited.comap (fun a _ => hfits a) fun _ _ _ _ h => hinj h

theorem role_delimited :
    Delimited (fun _ => True) fun role => textField (evidenceRoleLabel role) := by
  refine label_delimited (fun role => ?_) fun role role' h => ?_
  · cases role <;> (unfold TextFits; decide)
  · cases role <;> cases role' <;> first | rfl | exact absurd h (by decide)

theorem scope_delimited :
    Delimited (fun _ => True) fun scope : FastTriageEvidenceScope => textField scope.asStr := by
  refine label_delimited (fun scope => ?_) fun scope scope' h => ?_
  · cases scope <;> (unfold TextFits; decide)
  · cases scope <;> cases scope' <;> first | rfl | exact absurd h (by decide)

theorem clock_delimited :
    Delimited (fun _ => True) fun clock : FastTriageClockCompatibility =>
      textField clock.asStr := by
  refine label_delimited (fun clock => ?_) fun clock clock' h => ?_
  · cases clock <;> (unfold TextFits; decide)
  · cases clock <;> cases clock' <;> first | rfl | exact absurd h (by decide)

theorem category_delimited :
    Delimited (fun _ => True) fun category : FastTriageEvidenceCategory =>
      textField category.asStr := by
  refine label_delimited (fun category => ?_) fun category category' h => ?_
  · cases category <;> (unfold TextFits; decide)
  · cases category <;> cases category' <;> first | rfl | exact absurd h (by decide)

theorem ordinal_delimited : Delimited (fun _ => True) ordinalBytes := by
  rintro (_ | n) (_ | m) x y - - h
  · exact ⟨rfl, (List.cons.inj h).2⟩
  · exact absurd (List.cons.inj h).1 (by decide)
  · exact absurd (List.cons.inj h).1 (by decide)
  · obtain ⟨rfl, hxy⟩ := wordBytes_delimited trivial trivial (List.cons.inj h).2
    exact ⟨rfl, hxy⟩

theorem row_delimited : Delimited FastTriagePacketRow.Fits FastTriagePacketRow.bytes := by
  rintro ⟨e, c, r, s, o, k⟩ ⟨e', c', r', s', o', k'⟩ x y ⟨h1, h2⟩ ⟨h1', h2'⟩ h
  simp only [FastTriagePacketRow.bytes, List.append_assoc] at *
  obtain ⟨he, h⟩ := textField_delimited h1 h1' h
  obtain ⟨hc, h⟩ := textField_delimited h2 h2' h
  obtain ⟨hr, h⟩ := role_delimited trivial trivial h
  obtain ⟨hs, h⟩ := scope_delimited trivial trivial h
  obtain ⟨hk, h⟩ := category_delimited trivial trivial h
  obtain ⟨ho, h⟩ := ordinal_delimited trivial trivial h
  exact ⟨by rw [he, hc, hr, hs, hk, ho], h⟩

theorem rows_delimited :
    Delimited RowsFit fun rows => leBytes 8 rows.length ++ rows.flatMap FastTriagePacketRow.bytes :=
  row_delimited.counted (leBytes_delimited 8)

theorem independent_delimited :
    Delimited IndependentOk fun id : Option String => textField (id.getD "") := by
  refine textField_delimited.comap (fun id hid => ?_) fun id id' hid hid' h => ?_
  · cases id with
    | none => unfold TextFits; decide
    | some s => exact (hid s rfl).2
  · have hblank : ∀ s, IndependentOk (some s) → s ≠ "" := by
      rintro s hs rfl
      exact (hs "" rfl).1 (by decide)
    cases id with
    | none =>
      cases id' with
      | none => rfl
      | some s => exact absurd h.symm (hblank s hid')
    | some s =>
      cases id' with
      | none => exact absurd h (hblank s hid)
      | some s' => exact congrArg some h

theorem flag_delimited : Delimited (fun _ => True) flagBytes := by
  rintro (_ | _) (_ | _) x y - - h
  · exact ⟨rfl, (List.cons.inj h).2⟩
  · exact absurd (List.cons.inj h).1 (by decide)
  · exact absurd (List.cons.inj h).1 (by decide)
  · exact ⟨rfl, (List.cons.inj h).2⟩

/-- What a packet is made of, as far as its identity goes. -/
structure PacketFacts where
  binding : AnswerBindingV1
  rows : List FastTriagePacketRow
  independentCandidateId : Option String
  timelineComplete : Bool
  clock : FastTriageClockCompatibility
  budget : FastTriageNeighborhoodBudget
  deriving DecidableEq

def PacketFacts.preimage (facts : PacketFacts) : List UInt8 :=
  packetPreimage facts.binding facts.rows facts.independentCandidateId facts.timelineComplete
    facts.clock facts.budget

structure PacketFacts.Ok (facts : PacketFacts) : Prop where
  binding : facts.binding.Fits
  rows : RowsFit facts.rows
  independent : IndependentOk facts.independentCandidateId

theorem preimage_delimited : Delimited PacketFacts.Ok PacketFacts.preimage := by
  rintro ⟨⟨s, t, c, r, d⟩, rows, i, f, k, ⟨b1, b2, b3⟩⟩
    ⟨⟨s', t', c', r', d'⟩, rows', i', f', k', ⟨b1', b2', b3'⟩⟩ x y ⟨⟨h1, h2, h3, h4⟩, h5, h6⟩
    ⟨⟨h1', h2', h3', h4'⟩, h5', h6'⟩ h
  simp only [PacketFacts.preimage, packetPreimage, List.append_assoc] at *
  replace h := List.append_cancel_left h
  obtain ⟨hs, h⟩ := textField_delimited h1 h1' h
  obtain ⟨ht, h⟩ := textField_delimited h2 h2' h
  obtain ⟨hc, h⟩ := textField_delimited h3 h3' h
  obtain ⟨hd, h⟩ := textField_delimited h4 h4' h
  obtain ⟨hr, h⟩ := revision_delimited trivial trivial h
  obtain ⟨hi, h⟩ := independent_delimited h6 h6' h
  obtain ⟨hf, h⟩ := flag_delimited trivial trivial h
  obtain ⟨hk, h⟩ := clock_delimited trivial trivial h
  obtain ⟨hb1, h⟩ := wordBytes_delimited trivial trivial h
  obtain ⟨hb2, h⟩ := wordBytes_delimited trivial trivial h
  obtain ⟨hb3, h⟩ := wordBytes_delimited trivial trivial h
  rw [← List.append_assoc, ← List.append_assoc] at h
  obtain ⟨hrows, h⟩ := rows_delimited h5 h5' h
  exact ⟨by rw [hs, ht, hc, hd, hr, hi, hf, hk, hb1, hb2, hb3, hrows], h⟩

/-! ## What the identity of a packet binds -/

theorem textFits_trim {s : String} (h : TextFits s) : TextFits (String.ofList (trim s.toList)) := by
  have hsub : (textBytes (String.ofList (trim s.toList))).Sublist (textBytes s) := by
    rw [textBytes_eq, textBytes_eq, String.toList_ofList]
    exact (trim_sublist s.toList).flatMap _
  exact lt_of_le_of_lt hsub.length_le h

theorem independentId_ok {id : Option String} (h : ∀ s, id = some s → TextFits s) :
    IndependentOk (independentId id) := by
  intro s hs
  unfold independentId at hs
  obtain ⟨hmap, hne⟩ := Option.filter_eq_some_iff.mp hs
  obtain ⟨t, ht, rfl⟩ := Option.map_eq_some_iff.mp hmap
  refine ⟨fun hnil => ?_, textFits_trim (h t ht)⟩
  rw [String.toList_ofList, trim_trim] at hnil
  rw [hnil] at hne
  exact absurd rfl (of_decide_eq_true hne)

/-- The texts of the inputs have their bytes counted by 64 bits, and so has the ledger its rows. -/
structure FastTriagePacketInputs.Fits (inputs : FastTriagePacketInputs) : Prop where
  binding : inputs.ledger.binding.Fits
  length : inputs.ledger.entries.length < 2 ^ 64
  entries : ∀ entry ∈ inputs.ledger.entries, TextFits entry.evidenceId ∧ TextFits entry.candidateId
  independent : ∀ s, inputs.independentCandidateId = some s → TextFits s

def FastTriagePacketV1.facts (packet : FastTriagePacketV1)
    (budget : FastTriageNeighborhoodBudget) : PacketFacts :=
  { binding := packet.ledger.binding, rows := packet.rows,
    independentCandidateId := packet.independentCandidateId,
    timelineComplete := packet.timelineComplete, clock := packet.clock, budget := budget }

theorem build_facts_ok {inputs : FastTriagePacketInputs} (h : inputs.Fits)
    (sha256Hex : List UInt8 → String) (classify : NeighborhoodClassifier) :
    ((FastTriagePacketV1.build sha256Hex classify inputs).facts inputs.neighborhood).Ok := by
  refine ⟨h.binding, ⟨?_, fun row hrow => ?_⟩, independentId_ok h.independent⟩
  · show (inputs.ledger.entries.map _).length < 2 ^ 64
    rw [List.length_map]
    exact h.length
  · obtain ⟨entry, hentry, rfl⟩ := List.mem_map.mp hrow
    exact h.entries entry hentry

/-- The hashed bytes tell all that the identity is made of apart, and without collisions of the
hash two packets of one id agree on it. -/
theorem packetIdentity_binds {sha256Hex : List UInt8 → String}
    (hsha : Function.Injective sha256Hex) :
    (∀ facts facts' : PacketFacts, facts.Ok → facts'.Ok → facts.preimage = facts'.preimage →
      facts = facts') ∧
    ∀ classify classify' (inputs inputs' : FastTriagePacketInputs), inputs.Fits → inputs'.Fits →
      (FastTriagePacketV1.build sha256Hex classify inputs).packetId =
        (FastTriagePacketV1.build sha256Hex classify' inputs').packetId →
      (FastTriagePacketV1.build sha256Hex classify inputs).facts inputs.neighborhood =
        (FastTriagePacketV1.build sha256Hex classify' inputs').facts inputs'.neighborhood := by
  have hinj : ∀ facts facts' : PacketFacts, facts.Ok → facts'.Ok →
      facts.preimage = facts'.preimage → facts = facts' :=
    fun _ _ hok hok' h => preimage_delimited.inj hok hok' h
  refine ⟨hinj, fun classify classify' inputs inputs' hfits hfits' h => ?_⟩
  exact hinj _ _ (build_facts_ok hfits _ _) (build_facts_ok hfits' _ _) (hsha h)

/-- The facts of a packet with one row that has an ordinal and one that has none. -/
def twoRowFacts : PacketFacts :=
  { binding := ⟨"session", "turn", "corpus", ⟨1, 2, 3⟩, "digest"⟩,
    rows := [⟨"e1", "g-a", .cause, .candidate, some 10, .focus⟩,
      ⟨"e2", "tl", .neutral, .independent, none, .independentNoise⟩],
    independentCandidateId := some "tl", timelineComplete := true, clock := .orderOnly,
    budget := ⟨2, 2, 8⟩ }

theorem packetIdentity_binds_two : twoRowFacts.Ok ∧
    { twoRowFacts with independentCandidateId := none }.Ok ∧
    twoRowFacts.preimage ≠ { twoRowFacts with independentCandidateId := none }.preimage := by
  have hok : twoRowFacts.Ok := by
    constructor
    · unfold AnswerBindingV1.Fits TextFits
      decide +kernel
    · unfold RowsFit FastTriagePacketRow.Fits TextFits
      decide +kernel
    · rintro s hs
      obtain rfl : "tl" = s := Option.some.inj hs
      unfold TextFits
      decide +kernel
  have hok' : { twoRowFacts with independentCandidateId := none }.Ok :=
    ⟨hok.binding, hok.rows, fun s hs => by cases hs⟩
  refine ⟨hok, hok', fun h => ?_⟩
  have heq := (packetIdentity_binds spell_injective).1 _ _ hok hok' h
  exact absurd heq (by decide)

end ContextDesk
