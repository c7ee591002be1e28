import ContextDesk.Cases.CallFaults
import ContextDesk.Cases.Contributions

/-!
# Runs of writers of contributions

Calls start, commit and report in any order. A chain that is stored only grows, by a revision that
follows its last one, because a call has read a stored revision and the number after it is still
free. A call that lost reports the last revision of the chain. Two creations with one key get one
contribution.
-/

namespace ContextDesk

open Lib List Function

inductive CallPhase where
  | idle
  /-- The call has read the store, and its writes are to come. -/
  | prepared (write : ContributionWrite)
  /-- Its writes met a unique violation and are rolled back. -/
  | refused
  | returned (result : Except ContributionError RevisionRow)

structure ContributionState where
  store : ContributionDb
  phase : Nat → CallPhase := fun _ => .idle

inductive ContributionMove where
  | start (id : Nat)
  | commit (id : Nat)
  /-- A statement of the transaction fails. -/
  | fail (id : Nat)
  | report (id : Nat)
  /-- Other calls change anything but the revisions. -/
  | other (db : CaseDb)

def ContributionState.goOn (s : ContributionState) (id : Nat) (phase : CallPhase) :
    ContributionState :=
  { s with phase := update s.phase id phase }

theorem goOn_phase_self (s : ContributionState) (id : Nat) (phase : CallPhase) :
    (s.goOn id phase).phase id = phase :=
  update_self ..

variable {i : Nat} {phase : CallPhase}

theorem goOn_phase_of_ne {s : ContributionState} {id : Nat} (h : i ≠ id) :
    (s.goOn id phase).phase i = s.phase i :=
  update_of_ne h ..

section

variable (env : ContributionEnv) (calls : Nat → Stamp × ContributionCall)

def ContributionState.prepared (s : ContributionState) (id : Nat) :
    Except Thrown Prepared → ContributionState
  | .error e => s.goOn id (.returned (.error (.of e)))
  | .ok (.returns row) => s.goOn id (.returned (.ok row))
  | .ok .conflicts => s.goOn id (.returned (.error (.conflict none)))
  | .ok (.writes write) => s.goOn id (.prepared write)

def ContributionState.committed (s : ContributionState) (id : Nat) (write : ContributionWrite) :
    Except Thrown ContributionDb → ContributionState
  | .error .uniqueViolation => s.goOn id .refused
  | .error e => s.goOn id (.returned (.error (.of e)))
  | .ok store => { s.goOn id (.returned (.ok write.rev)) with store }

def contributionStep (s : ContributionState) : ContributionMove → ContributionState
  | .start id =>
    match s.phase id with
    | .idle => s.prepared id (prepare env (calls id).1 s.store (calls id).2)
    | _ => s
  | .commit id =>
    match s.phase id with
    | .prepared write => s.committed id write (commitContribution s.store write)
    | _ => s
  | .fail id =>
    match s.phase id with
    | .prepared _ => s.goOn id (.returned (.error (.thrown .failed)))
    | _ => s
  | .report id =>
    match s.phase id with
    | .refused => s.goOn id (.returned (afterViolation env s.store (calls id).2))
    | _ => s
  | .other db =>
    { s with store := { s.store with db := { db with revisions := s.store.db.revisions } } }

end

/-! ## Chains -/

structure ChainOk (id : JsString) (chain : List RevisionRow) : Prop where
  contribution : ∀ row ∈ chain, row.contributionId = id
  revision : ∀ i row, chain[i]? = some row → row.revision = i + 1
  predecessor : ∀ i row, chain[i]? = some row →
    row.predecessorRevision = if i = 0 then none else some i
  same : ∀ a ∈ chain, ∀ b ∈ chain, a.kind = b.kind ∧ a.privacyClass = b.privacyClass ∧
    a.caseId = b.caseId ∧ a.sourceId = b.sourceId
  tombstone : ∀ i row, chain[i]? = some row → row.tombstone = true → i + 1 = chain.length

structure FirstOf (id : JsString) (row : RevisionRow) : Prop where
  contribution : row.contributionId = id
  revision : row.revision = 1
  predecessor : row.predecessorRevision = none

structure Follows (latest next : RevisionRow) : Prop where
  contribution : next.contributionId = latest.contributionId
  revision : next.revision = latest.revision + 1
  predecessor : next.predecessorRevision = some latest.revision
  kind : next.kind = latest.kind
  privacyClass : next.privacyClass = latest.privacyClass
  caseId : next.caseId = latest.caseId
  sourceId : next.sourceId = latest.sourceId

theorem chainOk_nil (id : JsString) : ChainOk id [] where
  contribution row h := absurd h not_mem_nil
  revision i row h := by cases h
  predecessor i row h := by cases h
  same a h := absurd h not_mem_nil
  tombstone i row h := by cases h

variable {α : Type}

theorem of_getElem?_singleton {a b : α} (h : [a][i]? = some b) : i = 0 ∧ a = b := by
  rw [getElem?_singleton] at h
  split at h
  · exact ⟨‹_›, Option.some.inj h⟩
  · cases h

variable {row : RevisionRow}

theorem chainOk_first {id : JsString} (h : FirstOf id row) :
    ChainOk id [row] where
  contribution r hr := by
    rw [mem_singleton.mp hr]
    exact h.contribution
  revision i r hr := by
    obtain ⟨rfl, rfl⟩ := of_getElem?_singleton hr
    exact h.revision
  predecessor i r hr := by
    obtain ⟨rfl, rfl⟩ := of_getElem?_singleton hr
    exact h.predecessor
  same a ha b hb := by
    rw [mem_singleton.mp ha, mem_singleton.mp hb]
    exact ⟨rfl, rfl, rfl, rfl⟩
  tombstone i r hr _ := by
    obtain ⟨rfl, rfl⟩ := of_getElem?_singleton hr
    rfl

namespace ChainOk

variable {id : JsString} {chain : List RevisionRow} {latest next : RevisionRow}

theorem last (h : ChainOk id chain) (hlast : chain.getLast? = some latest) :
    latest.revision = chain.length := by
  rw [getLast?_eq_getElem?] at hlast
  have hrevision := h.revision _ _ hlast
  have hpos : 0 < chain.length := by
    obtain ⟨hlt, -⟩ := List.getElem?_eq_some_iff.mp hlast
    omega
  omega

theorem last_of_free (h : ChainOk id chain) (hmem : latest ∈ chain)
    (hfree : chain.any (·.revision = latest.revision + 1) = false) :
    chain.getLast? = some latest := by
  obtain ⟨i, hi⟩ := mem_iff_getElem?.mp hmem
  have hrevision := h.revision i latest hi
  obtain ⟨hlt, -⟩ := List.getElem?_eq_some_iff.mp hi
  have hend : chain.length = i + 1 := by
    by_contra hne
    have hnext : i + 1 < chain.length := by omega
    have htaken := any_eq_false.mp hfree chain[i + 1] (getElem_mem hnext)
    rw [h.revision (i + 1) chain[i + 1] (getElem?_eq_getElem hnext)] at htaken
    exact htaken (decide_eq_true (by omega))
  rw [getLast?_eq_getElem?, hend]
  exact hi

theorem append (h : ChainOk id chain) (hlast : chain.getLast? = some latest)
    (hlive : latest.tombstone = false) (hnext : Follows latest next) :
    ChainOk id (chain ++ [next]) := by
  have hmem : latest ∈ chain := mem_of_getLast? hlast
  have hlength := h.last hlast
  have hsplit : ∀ i row, (chain ++ [next])[i]? = some row →
      chain[i]? = some row ∨ i = chain.length ∧ row = next := by
    intro i row hrow
    rcases Nat.lt_or_ge i chain.length with hlt | hge
    · rw [getElem?_append_left hlt] at hrow
      exact .inl hrow
    · rw [getElem?_append_right hge] at hrow
      obtain ⟨hi, hrow⟩ := of_getElem?_singleton hrow
      exact .inr ⟨by omega, hrow.symm⟩
  have hsame : ∀ a ∈ chain, a.kind = next.kind ∧ a.privacyClass = next.privacyClass ∧
      a.caseId = next.caseId ∧ a.sourceId = next.sourceId := by
    intro a ha
    obtain ⟨hkind, hprivacy, hcase, hsource⟩ := h.same a ha latest hmem
    exact ⟨hkind.trans hnext.kind.symm, hprivacy.trans hnext.privacyClass.symm,
      hcase.trans hnext.caseId.symm, hsource.trans hnext.sourceId.symm⟩
  constructor
  · intro row hrow
    rcases mem_append.mp hrow with hrow | hrow
    · exact h.contribution row hrow
    · rw [mem_singleton.mp hrow, hnext.contribution]
      exact h.contribution latest hmem
  · intro i row hrow
    rcases hsplit i row hrow with hrow | ⟨rfl, rfl⟩
    · exact h.revision i row hrow
    · rw [hnext.revision, hlength]
  · intro i row hrow
    rcases hsplit i row hrow with hrow | ⟨rfl, rfl⟩
    · exact h.predecessor i row hrow
    · rw [hnext.predecessor, hlength, if_neg]
      exact (length_pos_of_mem hmem).ne'
  · intro a ha b hb
    rcases mem_append.mp ha with ha | ha <;> rcases mem_append.mp hb with hb | hb
    · exact h.same a ha b hb
    · rw [mem_singleton.mp hb]
      exact hsame a ha
    · rw [mem_singleton.mp ha]
      obtain ⟨hkind, hprivacy, hcase, hsource⟩ := hsame b hb
      exact ⟨hkind.symm, hprivacy.symm, hcase.symm, hsource.symm⟩
    · rw [mem_singleton.mp ha, mem_singleton.mp hb]
      exact ⟨rfl, rfl, rfl, rfl⟩
  · intro i row hrow htombstone
    rw [length_append, length_singleton]
    rcases hsplit i row hrow with hrow | ⟨rfl, rfl⟩
    · -- the chain before ends with a revision that is no tombstone
      have hend := h.tombstone i row hrow htombstone
      have hi : i = chain.length - 1 := by omega
      rw [getLast?_eq_getElem?, ← hi, hrow] at hlast
      rw [Option.some.inj hlast, hlive] at htombstone
      cases htombstone
    · rfl

theorem nil_of_free (h : ChainOk id chain) (hfree : chain.any (·.revision = 1) = false) :
    chain = [] := by
  cases chain with
  | nil => rfl
  | cons row chain =>
    have htaken := any_eq_false.mp hfree row mem_cons_self
    rw [h.revision 0 row rfl] at htaken
    exact (htaken (decide_eq_true rfl)).elim

end ChainOk

/-! ## What a call has read -/

variable {env : ContributionEnv} {w w' : Work CaseDb}

variable {caseId : JsString}

theorem latestOf_ok {chain : List RevisionRow} {latest : RevisionRow}
    (h : latestOf caseId chain = .ok latest) :
    (∃ first, chain.head? = some first ∧ first.caseId = caseId) ∧ chain.getLast? = some latest := by
  unfold latestOf at h
  split at h
  · rename_i first latest' hfirst hlast
    split at h
    · rename_i hcase
      cases h
      exact ⟨⟨first, hfirst, hcase⟩, hlast⟩
    · cases h
  · cases h

variable {contributionId : JsString}

theorem requireLatest_ok {latest : RevisionRow}
    (h : requireLatest caseId contributionId w = (.ok latest, w')) :
    (∃ first, (w.db.revisions contributionId).head? = some first ∧ first.caseId = caseId) ∧
      (w.db.revisions contributionId).getLast? = some latest := by
  obtain ⟨chain, w₁, hchain, h⟩ := Sql.bind_ok.mp h
  obtain ⟨rfl, -⟩ := select_ok hchain
  exact latestOf_ok (Sql.lift_ok.mp h).1

theorem validatedHypothesisLinks_ok {env : CaseEnv} {raw : JsValue} {path : String}
    {links : List HypothesisLink}
    (h : validatedHypothesisLinks env caseId raw path w = (.ok links, w')) :
    env.parseHypothesisLinks raw path = .ok links := by
  obtain ⟨parsed, w₁, hparsed, h⟩ := Sql.bind_ok.mp h
  obtain ⟨_, w₂, -, h⟩ := Sql.bind_ok.mp h
  obtain ⟨rfl, -⟩ := Sql.pure_ok.mp h
  have hlift := (Sql.lift_ok.mp hparsed).1
  cases hraw : env.parseHypothesisLinks raw path with
  | ok links =>
    rw [hraw] at hlift
    exact congrArg _ (Except.ok.inj hlift)
  | error e =>
    rw [hraw] at hlift
    cases hlift

theorem ok_of_orError {x : Outcome α} {a : α} (h : orError x w = (.ok a, w')) :
    x = .ok a ∧ w = w' := by
  obtain ⟨hx, rfl⟩ := Sql.lift_ok.mp h
  cases x with
  | ok b => exact ⟨congrArg _ (Except.ok.inj hx), rfl⟩
  | error e => cases hx

/-- A call that revises a contribution: the case and the contribution. -/
def ContributionCall.revises : ContributionCall → Option (JsString × JsString)
  | .addContribution .. => none
  | .reviseContribution caseId contributionId .. => some (caseId, contributionId)
  | .tombstoneContribution caseId contributionId .. => some (caseId, contributionId)
  | .setHypothesisStatus caseId contributionId .. => some (caseId, contributionId)

def InCase (s : ContributionDb) (caseId contributionId : JsString) : Prop :=
  ∃ first, (s.db.revisions contributionId).head? = some first ∧ first.caseId = caseId

/-- The write puts a revision after a stored one. -/
structure Revises (caseId contributionId : JsString) (s : ContributionDb)
    (write : ContributionWrite) (latest : RevisionRow) : Prop where
  stored : latest ∈ s.db.revisions contributionId
  live : latest.tombstone = false
  follows : Follows latest write.rev
  inCase : InCase s caseId contributionId
  intent : write.intent = none

/-- The write makes a contribution, under the key of its input. -/
structure Creates (env : ContributionEnv) (caseId : JsString) (actor : Actor)
    (input : ContributionWriteInput) (write : ContributionWrite) : Prop where
  first : FirstOf write.rev.contributionId write.rev
  inCase : write.rev.caseId = caseId
  key : write.intent.map (·.key) = input.idempotencyKey.map fun key => (caseId, actor.id, key)
  intent : ∀ intent ∈ write.intent, intent.contributionId = write.rev.contributionId ∧
    requestDigest env actor input = .ok intent.requestDigest

/-- The revision that a call names as the latest. -/
def ContributionCall.expects : ContributionCall → RevisionRow → Prop
  | .reviseContribution _ _ _ _ _ expectedRevision _, latest =>
    (latest.revision : Rat) = expectedRevision
  | _, _ => True

def WriteFor (env : ContributionEnv) (s : ContributionDb) (call : ContributionCall)
    (write : ContributionWrite) : Prop :=
  match call with
  | .addContribution caseId actor input _ => Creates env caseId actor input write
  | call => ∀ caseId contributionId, call.revises = some (caseId, contributionId) →
    ∃ latest, Revises caseId contributionId s write latest ∧ call.expects latest

variable {actor : Actor} {input : ContributionWriteInput} {checked : CheckedContribution}

theorem checkContribution_digest
    (h : checkContribution env caseId actor input w = (.ok checked, w')) :
    requestDigest env actor input = .ok (digestOf env input checked.links checked.sourceId) := by
  obtain ⟨clientTime, w₁, -, h⟩ := Sql.bind_ok.mp h
  obtain ⟨_, w₂, -, h⟩ := Sql.bind_ok.mp h
  obtain ⟨kind, w₃, -, h⟩ := Sql.bind_ok.mp h
  obtain ⟨links, w₄, hlinks, h⟩ := Sql.bind_ok.mp h
  obtain ⟨_, w₅, -, h⟩ := Sql.bind_ok.mp h
  obtain ⟨sourceId, w₆, hsource, h⟩ := Sql.bind_ok.mp h
  obtain ⟨_, w₇, -, h⟩ := Sql.bind_ok.mp h
  obtain ⟨rfl, -⟩ := Sql.pure_ok.mp h
  unfold requestDigest
  rw [(ok_of_orError hsource).1]
  cases hraw : input.hypothesisLinks with
  | none =>
    rw [hraw] at hlinks
    obtain ⟨rfl, -⟩ := Sql.pure_ok.mp hlinks
    rfl
  | some raw =>
    rw [hraw] at hlinks
    obtain ⟨_, w₈, -, hlinks⟩ := Sql.bind_ok.mp hlinks
    have hparsed := validatedHypothesisLinks_ok hlinks
    change (env.parseHypothesisLinks raw "$.hypothesisLinks" >>= _) = _
    rw [hparsed]
    rfl

variable {stamp : Stamp} {origin : JsString} {write : ContributionWrite}

theorem prepareContribution_writes {s : ContributionDb}
    (h : prepareContribution env stamp s caseId actor input origin w = (.ok (.writes write), w')) :
    Creates env caseId actor input write := by
  obtain ⟨checked, w₁, hchecked, h⟩ := Sql.bind_ok.mp h
  cases hexisting : input.idempotencyKey.bind fun key =>
    s.contributionIntents (caseId, actor.id, key) with
  | some existing =>
    rw [hexisting] at h
    dsimp only at h
    split at h
    · cases (Sql.pure_ok.mp h).1
    · obtain ⟨row, w₂, -, h⟩ := Sql.bind_ok.mp h
      cases (Sql.pure_ok.mp h).1
  | none =>
    rw [hexisting] at h
    cases (Sql.pure_ok.mp h).1
    refine ⟨⟨rfl, rfl, rfl⟩, rfl, ?_, ?_⟩
    · change (input.idempotencyKey.map _).map ContributionWriteIntent.key = _
      rw [Option.map_map]
      rfl
    · intro intent hintent
      obtain ⟨key, -, rfl⟩ := Option.map_eq_some_iff.mp hintent
      exact ⟨rfl, checkContribution_digest hchecked⟩

variable {body : JsString} {expectedRevision : Rat} {clientTime : Option JsString}

theorem prepareRevision_writes {env : CaseEnv} {s : ContributionDb} (hdb : w.db = s.db)
    (h : prepareRevision env stamp caseId contributionId actor body origin expectedRevision
      clientTime w = (.ok (.writes write), w')) :
    ∃ latest, Revises caseId contributionId s write latest ∧
      (latest.revision : Rat) = expectedRevision := by
  obtain ⟨_, _, htime, h⟩ := Sql.bind_ok.mp h
  obtain ⟨-, rfl⟩ := ok_of_orError htime
  obtain ⟨latest, w₂, hlatest, h⟩ := Sql.bind_ok.mp h
  obtain ⟨_, w₃, hdemand, h⟩ := Sql.bind_ok.mp h
  obtain ⟨hlive, rfl⟩ := Sql.demand_ok.mp hdemand
  obtain ⟨_, w₄, hdemand', h⟩ := Sql.bind_ok.mp h
  obtain ⟨hexpected, rfl⟩ := Sql.demand_ok.mp hdemand'
  obtain ⟨hfirst, hlast⟩ := requireLatest_ok hlatest
  rw [hdb] at hfirst hlast
  cases (Sql.pure_ok.mp h).1
  exact ⟨latest, ⟨mem_of_getLast? hlast, hlive, ⟨rfl, rfl, rfl, rfl, rfl, rfl, rfl⟩, hfirst,
    rfl⟩, hexpected⟩

theorem prepareTombstone_writes {env : CaseEnv} {s : ContributionDb} (hdb : w.db = s.db)
    (h : prepareTombstone env stamp caseId contributionId actor origin w =
      (.ok (.writes write), w')) : ∃ latest, Revises caseId contributionId s write latest := by
  obtain ⟨row, w₁, hrow, h⟩ := Sql.bind_ok.mp h
  obtain ⟨_, w₂, hdemand, h⟩ := Sql.bind_ok.mp h
  obtain ⟨-, rfl⟩ := Sql.demand_ok.mp hdemand
  obtain ⟨latest, w₃, hlatest, h⟩ := Sql.bind_ok.mp h
  obtain ⟨hfirst, hlast⟩ := requireLatest_ok hlatest
  rw [(requireCase_ok hrow).2, hdb] at hfirst hlast
  split at h
  · cases (Sql.pure_ok.mp h).1
  · rename_i hlive
    cases (Sql.pure_ok.mp h).1
    exact ⟨latest, mem_of_getLast? hlast, Bool.eq_false_iff.mpr hlive,
      ⟨rfl, rfl, rfl, rfl, rfl, rfl, rfl⟩, hfirst, rfl⟩

theorem prepareHypothesis_writes {env : CaseEnv} {s : ContributionDb} {status : HypothesisStatus}
    {linksInput : JsValue} {canonicalTime : Option JsString} (hdb : w.db = s.db)
    (h : prepareHypothesis env stamp caseId contributionId actor status linksInput origin
      canonicalTime w = (.ok (.writes write), w')) :
    ∃ latest, Revises caseId contributionId s write latest := by
  obtain ⟨latest, w₁, hlatest, h⟩ := Sql.bind_ok.mp h
  obtain ⟨_, w₂, hdemand, h⟩ := Sql.bind_ok.mp h
  obtain ⟨⟨-, hlive⟩, rfl⟩ := Sql.demand_ok.mp hdemand
  obtain ⟨links, w₃, -, h⟩ := Sql.bind_ok.mp h
  obtain ⟨_, w₄, -, h⟩ := Sql.bind_ok.mp h
  obtain ⟨hfirst, hlast⟩ := requireLatest_ok hlatest
  rw [hdb] at hfirst hlast
  split at h
  · cases (Sql.pure_ok.mp h).1
  · cases (Sql.pure_ok.mp h).1
    exact ⟨latest, mem_of_getLast? hlast, hlive, ⟨rfl, rfl, rfl, rfl, rfl, rfl, rfl⟩, hfirst,
      rfl⟩

theorem prepare_writes {call : ContributionCall} {s : ContributionDb} (h : prepare env stamp s call = .ok (.writes write)) :
    WriteFor env s call write := by
  obtain ⟨w', h⟩ : ∃ w', prepareCall env stamp s call ⟨s.db, []⟩ = (.ok (.writes write), w') :=
    ⟨_, Prod.ext h rfl⟩
  cases call with
  | addContribution caseId actor input origin => exact prepareContribution_writes h
  | reviseContribution caseId contributionId actor body origin expectedRevision clientTime =>
    obtain ⟨_, w₁, hdemand, h⟩ := Sql.bind_ok.mp h
    obtain ⟨-, rfl⟩ := Sql.demand_ok.mp hdemand
    rintro _ _ ⟨⟩
    exact prepareRevision_writes rfl h
  | tombstoneContribution caseId contributionId actor origin =>
    rintro _ _ ⟨⟩
    obtain ⟨latest, hrevises⟩ := prepareTombstone_writes rfl h
    exact ⟨latest, hrevises, trivial⟩
  | setHypothesisStatus caseId contributionId actor status linksInput origin clientTime =>
    obtain ⟨_, w₁, htime, h⟩ := Sql.bind_ok.mp h
    obtain ⟨-, rfl⟩ := ok_of_orError htime
    rintro _ _ ⟨⟩
    obtain ⟨latest, hrevises⟩ := prepareHypothesis_writes rfl h
    exact ⟨latest, hrevises, trivial⟩

theorem made_validatedContributionLinks {R : CaseDb → CaseDb → Prop} (hR : ∀ db, R db db)
    {kind : ContributionKind} {raw : Option JsValue} :
    Sql.Made .failed R (validatedContributionLinks env caseId kind raw) := by
  cases raw with
  | none => exact .pure _
  | some raw => exact .bind (.lift _) fun _ => made_validatedHypothesisLinks hR

theorem made_checkContribution {R : CaseDb → CaseDb → Prop} (hR : ∀ db, R db db) :
    Sql.Made .failed R (checkContribution env caseId actor input) :=
  .bind (.lift _) fun _ => .bind (made_requireCase hR) fun _ => .bind (.lift _) fun _ =>
    .bind (made_validatedContributionLinks hR) fun _ => .bind (.lift _) fun _ =>
    .bind (.lift _) fun _ => .bind (.lift _) fun _ => .pure _

theorem reads_checkContribution
    (h : checkContribution env caseId actor input w = (.ok checked, w')) : w'.db = w.db := by
  have hmade : Sql.Made .failed Eq (checkContribution env caseId actor input) :=
    made_checkContribution Eq.refl
  have hkept := hmade.keeps Eq.refl (fun _ _ _ => Eq.trans) w
  rw [h] at hkept
  exact hkept.symm

/-! ## What a chain and an intent keep -/

/-- Chains grow at their end, and intents stay. -/
structure Extends (s s' : ContributionDb) : Prop where
  revisions : ∀ id, s.db.revisions id <+: s'.db.revisions id
  intents : ∀ key intent, s.contributionIntents key = some intent →
    s'.contributionIntents key = some intent

theorem Extends.refl (s : ContributionDb) : Extends s s where
  revisions _ := prefix_rfl
  intents _ _ h := h

theorem head_of_prefix {l l' : List α} {a : α} (h : l <+: l') (ha : l.head? = some a) :
    l'.head? = some a := by
  obtain ⟨rest, rfl⟩ := h
  rw [head?_append, ha]
  rfl

variable {s' : ContributionDb}

theorem InCase.of_extends {s : ContributionDb} (h : InCase s caseId contributionId)
    (hextends : Extends s s') : InCase s' caseId contributionId := by
  obtain ⟨first, hfirst, hcase⟩ := h
  exact ⟨first, head_of_prefix (hextends.revisions _) hfirst, hcase⟩

/-- The key of the creation is stored with its digest, and leads to the row. -/
def Stored (env : ContributionEnv) (s : ContributionDb) (caseId : JsString) (actor : Actor)
    (input : ContributionWriteInput) (row : RevisionRow) : Prop :=
  ∀ key ∈ input.idempotencyKey, ∃ intent,
    s.contributionIntents (caseId, actor.id, key) = some intent ∧
    requestDigest env actor input = .ok intent.requestDigest ∧
    (s.db.revisions intent.contributionId).head? = some row

theorem Stored.of_extends {s : ContributionDb} (h : Stored env s caseId actor input row)
    (hextends : Extends s s') : Stored env s' caseId actor input row := by
  intro key hkey
  obtain ⟨intent, hintent, hdigest, hrow⟩ := h key hkey
  exact ⟨intent, hextends.intents _ _ hintent, hdigest,
    head_of_prefix (hextends.revisions _) hrow⟩

theorem WriteFor.of_extends {call : ContributionCall} {s : ContributionDb} (h : WriteFor env s call write)
    (hextends : Extends s s') : WriteFor env s' call write := by
  have hrevises : ∀ caseId contributionId latest,
      Revises caseId contributionId s write latest →
      Revises caseId contributionId s' write latest := by
    intro caseId contributionId latest hr
    exact ⟨(hextends.revisions _).subset hr.stored, hr.live, hr.follows,
      hr.inCase.of_extends hextends, hr.intent⟩
  cases call with
  | addContribution => exact h
  | reviseContribution | tombstoneContribution | setHypothesisStatus =>
    intro caseId contributionId heq
    obtain ⟨latest, hr, hexpects⟩ := h caseId contributionId heq
    exact ⟨latest, hrevises _ _ _ hr, hexpects⟩

/-- What is known of a call between its steps. -/
def CallKept (env : ContributionEnv) (s : ContributionDb) (call : ContributionCall) :
    CallPhase → Prop
  | .prepared write => WriteFor env s call write
  | .refused => ∀ caseId contributionId, call.revises = some (caseId, contributionId) →
    InCase s caseId contributionId
  | .returned (.ok row) => ∀ caseId actor input origin,
    call = .addContribution caseId actor input origin → Stored env s caseId actor input row
  | _ => True

theorem CallKept.of_extends {call : ContributionCall} {s : ContributionDb} (h : CallKept env s call phase)
    (hextends : Extends s s') : CallKept env s' call phase := by
  cases phase with
  | idle => trivial
  | prepared write => exact WriteFor.of_extends h hextends
  | refused =>
    exact fun caseId contributionId heq => (h caseId contributionId heq).of_extends hextends
  | returned result =>
    cases result with
    | ok row =>
      exact fun caseId actor input origin heq =>
        Stored.of_extends (h caseId actor input origin heq) hextends
    | error e => trivial

theorem commitContribution_ok {s : ContributionDb} (h : commitContribution s write = .ok s') :
    (s.db.revisions write.rev.contributionId).any (·.revision = write.rev.revision) = false ∧
    (∀ intent ∈ write.intent, s.contributionIntents intent.key = none ∧
      s'.contributionIntents = update s.contributionIntents intent.key (some intent)) ∧
    (write.intent = none → s'.contributionIntents = s.contributionIntents) ∧
    s'.db.revisions = update s.db.revisions write.rev.contributionId
      (s.db.revisions write.rev.contributionId ++ [write.rev]) := by
  unfold commitContribution at h
  split at h
  · cases h
  rename_i hfree
  split at h
  · cases h
  rename_i hkey
  split at h
  · cases h
    refine ⟨Bool.eq_false_iff.mpr hfree, fun intent hintent => ⟨?_, ?_⟩, fun hnone => ?_, rfl⟩
    · by_contra hne
      exact hkey ⟨intent, hintent, Option.isSome_iff_ne_none.mpr hne⟩
    · rw [Option.mem_def] at hintent
      simp only [hintent]
    · simp only [hnone]
  · cases h

theorem extends_of_commit {s : ContributionDb} (h : commitContribution s write = .ok s') :
    Extends s s' := by
  obtain ⟨-, hintent, hnone, hrevisions⟩ := commitContribution_ok h
  constructor
  · intro id
    rw [hrevisions]
    by_cases hid : id = write.rev.contributionId
    · subst hid
      rw [update_self]
      exact prefix_append _ _
    · rw [update_of_ne hid]
  · intro key intent hkey
    cases hw : write.intent with
    | none => rwa [hnone hw]
    | some new =>
      obtain ⟨hfree, hupdate⟩ := hintent new hw
      rw [hupdate, update_of_ne]
      · exact hkey
      · rintro rfl
        rw [hfree] at hkey
        cases hkey

inductive StoreStep (s : ContributionState) : ContributionDb → Prop
  | same : StoreStep s s.store
  | other (db : CaseDb) (hrevisions : db.revisions = s.store.db.revisions) :
      StoreStep s { s.store with db }
  | commits {id : Nat} {write : ContributionWrite} {store : ContributionDb}
      (hphase : s.phase id = .prepared write) (h : commitContribution s.store write = .ok store) :
      StoreStep s store

inductive CallStep (env : ContributionEnv) (calls : Nat → Stamp × ContributionCall)
    (s : ContributionState) (store : ContributionDb) (id : Nat) : CallPhase → Prop
  | same : CallStep env calls s store id (s.phase id)
  | reads {write : ContributionWrite}
      (h : prepare env (calls id).1 s.store (calls id).2 = .ok (.writes write)) :
      CallStep env calls s store id (.prepared write)
  | answers {row : RevisionRow}
      (h : prepare env (calls id).1 s.store (calls id).2 = .ok (.returns row)) :
      CallStep env calls s store id (.returned (.ok row))
  | throws (e : ContributionError) : CallStep env calls s store id (.returned (.error e))
  | loses {write : ContributionWrite} (hphase : s.phase id = .prepared write) :
      CallStep env calls s store id .refused
  | commits {write : ContributionWrite} (hphase : s.phase id = .prepared write)
      (h : commitContribution s.store write = .ok store) :
      CallStep env calls s store id (.returned (.ok write.rev))
  | reports : CallStep env calls s store id (.returned (afterViolation env s.store (calls id).2))

theorem callStep_goOn {calls : Nat → Stamp × ContributionCall} {s : ContributionState}
    {store : ContributionDb} {id : Nat} (h : CallStep env calls s store id phase) (i : Nat) :
    CallStep env calls s store i ((s.goOn id phase).phase i) := by
  by_cases hi : i = id
  · subst hi
    rw [goOn_phase_self]
    exact h
  · rw [goOn_phase_of_ne hi]
    exact .same

theorem contributionStep_cases (env : ContributionEnv) (calls : Nat → Stamp × ContributionCall)
    (s : ContributionState) (m : ContributionMove) :
    StoreStep s (contributionStep env calls s m).store ∧
      ∀ id, CallStep env calls s (contributionStep env calls s m).store id
        ((contributionStep env calls s m).phase id) := by
  have hstay : StoreStep s s.store ∧ ∀ id, CallStep env calls s s.store id (s.phase id) :=
    ⟨.same, fun _ => .same⟩
  cases m with
  | start id =>
    dsimp only [contributionStep]
    split
    · cases hp : prepare env (calls id).1 s.store (calls id).2 with
      | error e => exact ⟨.same, callStep_goOn (.throws _)⟩
      | ok prepared =>
        cases prepared with
        | returns row => exact ⟨.same, callStep_goOn (.answers hp)⟩
        | conflicts => exact ⟨.same, callStep_goOn (.throws _)⟩
        | writes write => exact ⟨.same, callStep_goOn (.reads hp)⟩
    · exact hstay
  | commit id =>
    dsimp only [contributionStep]
    split
    · rename_i write hphase
      cases hc : commitContribution s.store write with
      | error e =>
        cases e <;> first
          | exact ⟨.same, callStep_goOn (.loses hphase)⟩
          | exact ⟨.same, callStep_goOn (.throws _)⟩
      | ok store => exact ⟨.commits hphase hc, callStep_goOn (.commits hphase hc)⟩
    · exact hstay
  | fail id =>
    dsimp only [contributionStep]
    split
    · exact ⟨.same, callStep_goOn (.throws _)⟩
    · exact hstay
  | report id =>
    dsimp only [contributionStep]
    split
    · exact ⟨.same, callStep_goOn .reports⟩
    · exact hstay
  | other db => exact ⟨.other _ rfl, fun _ => .same⟩

theorem contributionStep_extends (env : ContributionEnv) (calls : Nat → Stamp × ContributionCall)
    (s : ContributionState) (m : ContributionMove) :
    Extends s.store (contributionStep env calls s m).store := by
  have hstore := (contributionStep_cases env calls s m).1
  generalize (contributionStep env calls s m).store = store at hstore
  cases hstore with
  | same => exact .refl _
  | other db hrevisions =>
    refine ⟨fun id => ?_, fun _ _ h => h⟩
    rw [hrevisions]
  | commits _ h => exact extends_of_commit h

/-! ## What every run keeps -/

theorem createdOf_ok {id : JsString} {chain : List RevisionRow} (hchain : ChainOk id chain)
    (h : createdOf caseId chain = .ok row) : chain.head? = some row := by
  cases chain with
  | nil => cases h
  | cons first rest =>
    have hfirst : ((first :: rest).find? (·.revision = 1) <|> (first :: rest).head?) =
        some first := by
      have hrevision : first.revision = 1 := hchain.revision 0 first rfl
      rw [find?_cons_of_pos (p := fun row : RevisionRow => decide (row.revision = 1))
        (decide_eq_true hrevision)]
      rfl
    unfold createdOf at h
    rw [hfirst] at h
    dsimp only at h
    split at h
    · cases h
      rfl
    · cases h

structure ContributionsKept (env : ContributionEnv) (calls : Nat → Stamp × ContributionCall)
    (s : ContributionState) : Prop where
  chain : ∀ id, ChainOk id (s.store.db.revisions id)
  intent : ∀ key intent, s.store.contributionIntents key = some intent →
    intent.key = key ∧ InCase s.store intent.caseId intent.contributionId
  call : ∀ id, CallKept env s.store (calls id).2 (s.phase id)

structure NoContributions (s : ContributionState) : Prop where
  revisions : ∀ id, s.store.db.revisions id = []
  intents : ∀ key, s.store.contributionIntents key = none
  phase : ∀ id, s.phase id = .idle

variable {calls : Nat → Stamp × ContributionCall} {s : ContributionState}

theorem NoContributions.kept (h : NoContributions s) : ContributionsKept env calls s where
  chain id := by
    rw [h.revisions]
    exact chainOk_nil id
  intent key intent hintent := by
    rw [h.intents] at hintent
    cases hintent
  call id := by
    rw [h.phase]
    trivial

theorem ChainOk.of_write {call : ContributionCall} {s : ContributionDb} (hchain : ∀ id, ChainOk id (s.db.revisions id))
    (h : WriteFor env s call write)
    (hfree : (s.db.revisions write.rev.contributionId).any (·.revision = write.rev.revision) =
      false) :
    ChainOk write.rev.contributionId (s.db.revisions write.rev.contributionId ++ [write.rev]) := by
  have hrevises : ∀ caseId contributionId latest,
      Revises caseId contributionId s write latest →
      ChainOk write.rev.contributionId
        (s.db.revisions write.rev.contributionId ++ [write.rev]) := by
    intro caseId contributionId latest hr
    have hid : write.rev.contributionId = contributionId :=
      hr.follows.contribution.trans ((hchain contributionId).contribution _ hr.stored)
    rw [hid, hr.follows.revision] at hfree
    rw [hid]
    exact (hchain contributionId).append ((hchain contributionId).last_of_free hr.stored hfree)
      hr.live hr.follows
  cases call with
  | addContribution caseId actor input origin =>
    rw [h.first.revision] at hfree
    rw [(hchain _).nil_of_free hfree, nil_append]
    exact chainOk_first h.first
  | reviseContribution | tombstoneContribution | setHypothesisStatus =>
    obtain ⟨latest, hr, -⟩ := h _ _ rfl
    exact hrevises _ _ _ hr

variable {key : JsString} {existing : ContributionWriteIntent}

theorem stored_of_created {s : ContributionDb} (hkey : input.idempotencyKey = some key)
    (hexisting : s.contributionIntents (caseId, actor.id, key) = some existing)
    (hdigest : requestDigest env actor input = .ok existing.requestDigest)
    (hrow : (s.db.revisions existing.contributionId).head? = some row) :
    Stored env s caseId actor input row := by
  intro key' hkey'
  cases hkey.symm.trans hkey'
  exact ⟨existing, hexisting, hdigest, hrow⟩

theorem prepareContribution_returns {s : ContributionDb} (hdb : w.db = s.db)
    (hchain : ∀ id, ChainOk id (s.db.revisions id))
    (h : prepareContribution env stamp s caseId actor input origin w = (.ok (.returns row), w')) :
    Stored env s caseId actor input row := by
  obtain ⟨checked, w₁, hchecked, h⟩ := Sql.bind_ok.mp h
  cases hkey : input.idempotencyKey.bind fun key =>
    s.contributionIntents (caseId, actor.id, key) with
  | none =>
    rw [hkey] at h
    cases (Sql.pure_ok.mp h).1
  | some existing =>
    rw [hkey] at h
    dsimp only at h
    obtain ⟨key, hkey, hexisting⟩ := Option.bind_eq_some_iff.mp hkey
    split at h
    · cases (Sql.pure_ok.mp h).1
    rename_i hdigest
    obtain ⟨loaded, w₂, hloaded, h⟩ := Sql.bind_ok.mp h
    cases (Sql.pure_ok.mp h).1
    obtain ⟨chain, w₃, hselect, hcreated⟩ := Sql.bind_ok.mp hloaded
    obtain ⟨rfl, -⟩ := select_ok hselect
    rw [reads_checkContribution hchecked, hdb] at hcreated
    refine stored_of_created hkey hexisting ?_
      (createdOf_ok (hchain _) (Sql.lift_ok.mp hcreated).1)
    rw [checkContribution_digest hchecked, not_not.mp hdigest]

theorem prepare_returns {s : ContributionDb} (hchain : ∀ id, ChainOk id (s.db.revisions id))
    (h : prepare env stamp s (.addContribution caseId actor input origin) = .ok (.returns row)) :
    Stored env s caseId actor input row :=
  prepareContribution_returns (w := ⟨s.db, []⟩) rfl hchain (Prod.ext h rfl)

theorem afterViolation_ok {s : ContributionDb} (hchain : ∀ id, ChainOk id (s.db.revisions id))
    (h : afterViolation env s (.addContribution caseId actor input origin) = .ok row) :
    Stored env s caseId actor input row := by
  cases hkey : input.idempotencyKey with
  | none =>
    rw [afterViolation, hkey] at h
    cases h
  | some key =>
    rw [afterViolation, hkey] at h
    dsimp only at h
    cases hdigest : requestDigest env actor input with
    | error e =>
      rw [hdigest] at h
      cases h
    | ok digest =>
      rw [hdigest] at h
      change replayContributionWrite s caseId actor.id key digest = .ok row at h
      unfold replayContributionWrite at h
      split at h
      · cases h
      rename_i existing hexisting
      split at h
      · cases h
      rename_i hequal
      rw [← not_not.mp hequal] at hdigest
      cases hcreated : createdOf caseId (s.db.revisions existing.contributionId) with
      | error e =>
        rw [hcreated] at h
        cases h
      | ok created =>
        rw [hcreated] at h
        cases h
        exact stored_of_created hkey hexisting hdigest (createdOf_ok (hchain _) hcreated)

theorem stored_of_commit {s : ContributionDb} (hchain : ∀ id, ChainOk id (s.db.revisions id))
    (h : Creates env caseId actor input write) (hcommit : commitContribution s write = .ok s') :
    Stored env s' caseId actor input write.rev := by
  obtain ⟨hfree, hintents, -, hrevisions⟩ := commitContribution_ok hcommit
  rw [h.first.revision] at hfree
  intro key hkey
  cases hw : write.intent with
  | none =>
    have hnone := h.key
    rw [hw, hkey] at hnone
    cases hnone
  | some intent =>
    have hsame := h.key
    rw [hw, hkey] at hsame
    have hsame : intent.key = (caseId, actor.id, key) := Option.some.inj hsame
    obtain ⟨hid, hdigest⟩ := h.intent intent hw
    refine ⟨intent, ?_, hdigest, ?_⟩
    · rw [(hintents intent hw).2, ← hsame, update_self]
    · rw [hrevisions, hid, update_self, (hchain _).nil_of_free hfree]
      rfl

theorem intents_of_commit {call : ContributionCall} {s : ContributionDb} (h : WriteFor env s call write)
    (hcommit : commitContribution s write = .ok s') (hextends : Extends s s')
    (hchain : ∀ id, ChainOk id (s.db.revisions id))
    (hkept : ∀ key intent, s.contributionIntents key = some intent →
      intent.key = key ∧ InCase s intent.caseId intent.contributionId)
    (key : JsString × JsString × JsString) (intent : ContributionWriteIntent)
    (hintent : s'.contributionIntents key = some intent) :
    intent.key = key ∧ InCase s' intent.caseId intent.contributionId := by
  have hold : s.contributionIntents key = some intent →
      intent.key = key ∧ InCase s' intent.caseId intent.contributionId := by
    intro hintent
    obtain ⟨hkey, hcase⟩ := hkept key intent hintent
    exact ⟨hkey, hcase.of_extends hextends⟩
  obtain ⟨hfree, hintents, hnone, hrevisions⟩ := commitContribution_ok hcommit
  cases hw : write.intent with
  | none =>
    rw [hnone hw] at hintent
    exact hold hintent
  | some new =>
    rw [(hintents new hw).2] at hintent
    by_cases hkey : key = new.key
    · subst hkey
      rw [update_self] at hintent
      cases hintent
      refine ⟨rfl, ?_⟩
      cases call with
      | addContribution caseId actor input origin =>
        rw [h.first.revision] at hfree
        have hsame := h.key
        rw [hw] at hsame
        refine ⟨write.rev, ?_, ?_⟩
        · rw [hrevisions, (h.intent intent hw).1, update_self,
            (hchain _).nil_of_free hfree]
          rfl
        · obtain ⟨_, -, hsame⟩ := Option.map_eq_some_iff.mp hsame.symm
          exact h.inCase.trans (congrArg Prod.fst hsame)
      | reviseContribution | tombstoneContribution | setHypothesisStatus =>
        obtain ⟨latest, hr, -⟩ := h _ _ rfl
        rw [hr.intent] at hw
        cases hw
    · rw [update_of_ne hkey] at hintent
      exact hold hintent

theorem step_kept (m : ContributionMove) (h : ContributionsKept env calls s) :
    ContributionsKept env calls (contributionStep env calls s m) := by
  have hextends := contributionStep_extends env calls s m
  obtain ⟨hstore, hcalls⟩ := contributionStep_cases env calls s m
  generalize contributionStep env calls s m = s' at *
  obtain ⟨store, phase⟩ := s'
  dsimp only at hextends hstore hcalls
  refine ⟨fun id => ?_, fun key intent hintent => ?_, fun id => ?_⟩
  · change ChainOk id (store.db.revisions id)
    cases hstore with
    | same => exact h.chain id
    | other db hrevisions =>
      rw [hrevisions]
      exact h.chain id
    | @commits i write _ hphase hcommit =>
      have hwrite := h.call i
      rw [hphase] at hwrite
      obtain ⟨hfree, -, -, hrevisions⟩ := commitContribution_ok hcommit
      rw [hrevisions]
      by_cases hid : id = write.rev.contributionId
      · subst hid
        rw [update_self]
        exact ChainOk.of_write h.chain hwrite hfree
      · rw [update_of_ne hid]
        exact h.chain id
  · change store.contributionIntents key = some intent at hintent
    cases hstore with
    | same => exact h.intent key intent hintent
    | other db hrevisions =>
      obtain ⟨hkey, hcase⟩ := h.intent key intent hintent
      exact ⟨hkey, hcase.of_extends hextends⟩
    | @commits i write _ hphase hcommit =>
      have hwrite := h.call i
      rw [hphase] at hwrite
      exact intents_of_commit hwrite hcommit hextends h.chain h.intent key intent hintent
  · have hcall := hcalls id
    have hkept := h.call id
    change CallKept env store (calls id).2 (phase id)
    generalize phase id = next at hcall
    cases hcall with
    | same => exact hkept.of_extends hextends
    | reads hread => exact (prepare_writes hread).of_extends hextends
    | answers hread =>
      intro caseId actor input origin heq
      rw [heq] at hread
      exact (prepare_returns h.chain hread).of_extends hextends
    | throws e => trivial
    | loses hphase =>
      rw [hphase] at hkept
      intro caseId contributionId heq
      have hwrite : WriteFor env s.store (calls id).2 _ := hkept
      revert hwrite heq
      cases (calls id).2 with
      | addContribution => exact fun heq => by cases heq
      | reviseContribution | tombstoneContribution | setHypothesisStatus =>
        intro heq hwrite
        obtain ⟨latest, hr, -⟩ := hwrite _ _ heq
        exact hr.inCase.of_extends hextends
    | commits hphase hcommit =>
      rw [hphase] at hkept
      intro caseId actor input origin heq
      have hwrite : WriteFor env s.store (calls id).2 _ := hkept
      rw [heq] at hwrite
      exact stored_of_commit h.chain hwrite hcommit
    | reports =>
      cases hreport : afterViolation env s.store (calls id).2 with
      | error e => trivial
      | ok row =>
        intro caseId actor input origin heq
        rw [heq] at hreport
        exact (afterViolation_ok h.chain hreport).of_extends hextends

/-! ## The law of contributions -/

abbrev ContributionRun (env : ContributionEnv) (calls : Nat → Stamp × ContributionCall) :
    ContributionState → ContributionState → Prop :=
  Reached (contributionStep env calls) fun _ _ => True

def ContributionMove.call : ContributionMove → Option Nat
  | .start id => some id
  | .commit id => some id
  | .fail id => some id
  | .report id => some id
  | .other _ => none

/-- The revision that the write inserts is stored already. -/
def Taken (s : ContributionDb) (write : ContributionWrite) : Prop :=
  (s.db.revisions write.rev.contributionId).any (·.revision = write.rev.revision) = true

/-- The write meets no row, and the timeline has room for its event. -/
structure Free (s : ContributionDb) (write : ContributionWrite) : Prop where
  revision : ¬ Taken s write
  key : ∀ intent ∈ write.intent, s.contributionIntents intent.key = none
  room : (s.db.timeline write.caseId).length < ARRAY_MAX_LENGTH

structure ContributionLaw (env : ContributionEnv) (calls : Nat → Stamp × ContributionCall)
    (s : ContributionState) : Prop where
  chain : ∀ id, ChainOk id (s.store.db.revisions id)
  grows : ∀ m, Extends s.store (contributionStep env calls s m).store
  /-- Only a call that returns has written. -/
  traceless : ∀ m i, m.call = some i →
    (∀ row, (contributionStep env calls s m).phase i ≠ .returned (.ok row)) →
    (contributionStep env calls s m).store = s.store
  revised : ∀ m i caseId contributionId actor body origin expectedRevision clientTime row,
    (calls i).2 = .reviseContribution caseId contributionId actor body origin expectedRevision
      clientTime →
    s.phase i ≠ .returned (.ok row) →
    (contributionStep env calls s m).phase i = .returned (.ok row) →
    ∃ latest, (s.store.db.revisions contributionId).getLast? = some latest ∧
      (latest.revision : Rat) = expectedRevision ∧
      (contributionStep env calls s m).store.db.revisions contributionId =
        s.store.db.revisions contributionId ++ [row]
  /-- The first writer of a revision commits. -/
  wins : ∀ i write, s.phase i = .prepared write → Free s.store write →
    (contributionStep env calls s (.commit i)).phase i = .returned (.ok write.rev) ∧
    (contributionStep env calls s (.commit i)).store.db.revisions write.rev.contributionId =
      s.store.db.revisions write.rev.contributionId ++ [write.rev]
  /-- After it, no other writer of the revision does. -/
  loses : ∀ i j write write', s.phase i = .prepared write →
    (contributionStep env calls s (.commit i)).phase i = .returned (.ok write.rev) →
    write'.rev.contributionId = write.rev.contributionId →
    write'.rev.revision = write.rev.revision →
    ∀ t, ContributionRun env calls (contributionStep env calls s (.commit i)) t →
      t.phase j = .prepared write' →
      (contributionStep env calls t (.commit j)).phase j = .refused
  reported : ∀ i caseId contributionId, (calls i).2.revises = some (caseId, contributionId) →
    s.phase i = .refused →
    ∃ latest, (s.store.db.revisions contributionId).getLast? = some latest ∧
      (contributionStep env calls s (.report i)).phase i =
        .returned (.error (.conflict (some latest.revision)))
  /-- Two creations with one key make one contribution. -/
  created : ∀ i j caseId actor actor' input input' origin origin' key row row',
    (calls i).2 = .addContribution caseId actor input origin →
    (calls j).2 = .addContribution caseId actor' input' origin' →
    actor'.id = actor.id → input.idempotencyKey = some key → input'.idempotencyKey = some key →
    s.phase i = .returned (.ok row) → s.phase j = .returned (.ok row') →
    row' = row ∧ row.revision = 1 ∧ requestDigest env actor' input' = requestDigest env actor input
  /-- A creation whose key is stored with its digest gets the first revision, before its writes and
  after they were rolled back. -/
  replayed : ∀ i caseId actor input origin key existing,
    (calls i).2 = .addContribution caseId actor input origin → input.idempotencyKey = some key →
    s.store.contributionIntents (caseId, actor.id, key) = some existing →
    requestDigest env actor input = .ok existing.requestDigest →
    ∃ row, (s.store.db.revisions existing.contributionId).head? = some row ∧ row.revision = 1 ∧
      (s.phase i = .idle →
        (∃ checked, (checkContribution env caseId actor input ⟨s.store.db, []⟩).1 = .ok checked) →
        (contributionStep env calls s (.start i)).phase i = .returned (.ok row)) ∧
      (s.phase i = .refused →
        (contributionStep env calls s (.report i)).phase i = .returned (.ok row))

theorem step_traceless {m : ContributionMove} (hm : m.call = some i)
    (h : ∀ row, (contributionStep env calls s m).phase i ≠ .returned (.ok row)) :
    (contributionStep env calls s m).store = s.store := by
  cases m with
  | start id =>
    dsimp only [contributionStep]
    split
    · unfold ContributionState.prepared
      split <;> rfl
    · rfl
  | commit id =>
    cases hm
    revert h
    dsimp only [contributionStep]
    split
    · rename_i write hphase
      unfold ContributionState.committed
      split
      · exact fun _ => rfl
      · exact fun _ => rfl
      · exact fun h => absurd (goOn_phase_self s i _) (h write.rev)
    · exact fun _ => rfl
  | fail id =>
    dsimp only [contributionStep]
    split <;> rfl
  | report id =>
    dsimp only [contributionStep]
    split <;> rfl
  | other db => cases hm

theorem prepare_revise {s : ContributionDb} :
    prepare env stamp s (.reviseContribution caseId contributionId actor body origin
      expectedRevision clientTime) ≠ .ok (.returns row) := by
  intro h
  obtain ⟨w', h⟩ : ∃ w', prepareCall env stamp s (.reviseContribution caseId contributionId actor
      body origin expectedRevision clientTime) ⟨s.db, []⟩ = (.ok (.returns row), w') :=
    ⟨_, Prod.ext h rfl⟩
  obtain ⟨_, w₁, -, h⟩ := Sql.bind_ok.mp h
  obtain ⟨_, w₂, -, h⟩ := Sql.bind_ok.mp h
  obtain ⟨latest, w₃, -, h⟩ := Sql.bind_ok.mp h
  obtain ⟨_, w₄, -, h⟩ := Sql.bind_ok.mp h
  obtain ⟨_, w₅, -, h⟩ := Sql.bind_ok.mp h
  cases (Sql.pure_ok.mp h).1

theorem revisionConflict_ne {s : ContributionDb} :
    revisionConflict s caseId contributionId ≠ .ok row := by
  unfold revisionConflict
  split <;> simp

theorem Revises.last {s : ContributionDb} {latest : RevisionRow}
    (h : Revises caseId contributionId s write latest)
    (hchain : ∀ id, ChainOk id (s.db.revisions id)) (hfree : ¬ Taken s write) :
    write.rev.contributionId = contributionId ∧
      (s.db.revisions contributionId).getLast? = some latest := by
  have hid : write.rev.contributionId = contributionId :=
    h.follows.contribution.trans ((hchain contributionId).contribution _ h.stored)
  rw [Taken, Bool.not_eq_true, hid, h.follows.revision] at hfree
  exact ⟨hid, (hchain contributionId).last_of_free h.stored hfree⟩

theorem step_revised (hkept : ContributionsKept env calls s) {m : ContributionMove}
    (hcall : (calls i).2 = .reviseContribution caseId contributionId actor body origin
      expectedRevision clientTime) (hbefore : s.phase i ≠ .returned (.ok row))
    (hafter : (contributionStep env calls s m).phase i = .returned (.ok row)) :
    ∃ latest, (s.store.db.revisions contributionId).getLast? = some latest ∧
      (latest.revision : Rat) = expectedRevision ∧
      (contributionStep env calls s m).store.db.revisions contributionId =
        s.store.db.revisions contributionId ++ [row] := by
  have hstep := (contributionStep_cases env calls s m).2 i
  rw [hafter] at hstep
  generalize hphase : CallPhase.returned (.ok row) = phase at hstep
  cases hstep with
  | same => exact absurd hphase.symm hbefore
  | reads => cases hphase
  | answers h =>
    cases hphase
    rw [hcall] at h
    exact absurd h prepare_revise
  | throws e => cases hphase
  | loses => cases hphase
  | @commits write hprepared h =>
    cases hphase
    have hwrite := hkept.call i
    rw [hprepared, hcall] at hwrite
    obtain ⟨latest, hr, hexpected⟩ := hwrite _ _ rfl
    obtain ⟨hfree, -, -, hrevisions⟩ := commitContribution_ok h
    obtain ⟨hid, hlast⟩ := hr.last hkept.chain (Bool.eq_false_iff.mp hfree)
    refine ⟨latest, hlast, hexpected, ?_⟩
    rw [hrevisions, hid, update_self]
  | reports =>
    rw [hcall] at hphase
    exact absurd (CallPhase.returned.inj hphase).symm revisionConflict_ne

theorem commitContribution_free {s : ContributionDb} (h : Free s write) :
    ∃ s', commitContribution s write = .ok s' := by
  have hkey : ¬ ∃ intent ∈ write.intent, (s.contributionIntents intent.key).isSome := by
    rintro ⟨intent, hintent, hsome⟩
    rw [h.key intent hintent] at hsome
    cases hsome
  exact ⟨_, (if_neg h.revision).trans ((if_neg hkey).trans (if_pos h.room))⟩

theorem commitContribution_taken {s : ContributionDb} (h : Taken s write) :
    commitContribution s write = .error .uniqueViolation :=
  if_pos h

theorem step_commit (hphase : s.phase i = .prepared write) :
    contributionStep env calls s (.commit i) =
      s.committed i write (commitContribution s.store write) := by
  dsimp only [contributionStep]
  rw [hphase]

theorem step_wins (hphase : s.phase i = .prepared write) (hfree : Free s.store write) :
    (contributionStep env calls s (.commit i)).phase i = .returned (.ok write.rev) ∧
    (contributionStep env calls s (.commit i)).store.db.revisions write.rev.contributionId =
      s.store.db.revisions write.rev.contributionId ++ [write.rev] := by
  obtain ⟨store, hstore⟩ := commitContribution_free hfree
  obtain ⟨-, -, -, hrevisions⟩ := commitContribution_ok hstore
  rw [step_commit hphase, hstore]
  refine ⟨goOn_phase_self s i _, ?_⟩
  change store.db.revisions _ = _
  rw [hrevisions, update_self]

theorem Taken.of_extends {s : ContributionDb} (h : Taken s write) (hextends : Extends s s') :
    Taken s' write := by
  obtain ⟨row, hrow, hrevision⟩ := any_eq_true.mp h
  exact any_eq_true.mpr ⟨row, (hextends.revisions _).subset hrow, hrevision⟩

theorem taken_of_run {t : ContributionState} (h : Taken s.store write)
    (hrun : ContributionRun env calls s t) : Taken t.store write :=
  hrun.invariant (P := fun t => Taken t.store write) h fun t m ht _ =>
    ht.of_extends (contributionStep_extends env calls t m)

theorem taken_of_commit (hphase : s.phase i = .prepared write)
    (hreturned : (contributionStep env calls s (.commit i)).phase i = .returned (.ok write.rev)) :
    Taken (contributionStep env calls s (.commit i)).store write := by
  rw [step_commit hphase] at hreturned ⊢
  cases hcommit : commitContribution s.store write with
  | error e =>
    rw [hcommit] at hreturned
    exfalso
    cases e <;> exact absurd ((goOn_phase_self s i _).symm.trans hreturned) (by simp)
  | ok store =>
    obtain ⟨-, -, -, hrevisions⟩ := commitContribution_ok hcommit
    change (store.db.revisions _).any _ = true
    rw [hrevisions, update_self]
    exact any_eq_true.mpr ⟨write.rev, mem_append_right _ (mem_singleton_self _),
      decide_eq_true rfl⟩

theorem step_loses {j : Nat} {write' : ContributionWrite} (hphase : s.phase i = .prepared write)
    (hreturned : (contributionStep env calls s (.commit i)).phase i = .returned (.ok write.rev))
    (hid : write'.rev.contributionId = write.rev.contributionId)
    (hrevision : write'.rev.revision = write.rev.revision) {t : ContributionState}
    (hrun : ContributionRun env calls (contributionStep env calls s (.commit i)) t)
    (hother : t.phase j = .prepared write') :
    (contributionStep env calls t (.commit j)).phase j = .refused := by
  have htaken : Taken t.store write' := by
    have h := taken_of_run (taken_of_commit hphase hreturned) hrun
    rwa [Taken, ← hid, ← hrevision] at h
  rw [step_commit hother, commitContribution_taken htaken]
  exact goOn_phase_self t j _

theorem revisionConflict_of_inCase {s : ContributionDb} (h : InCase s caseId contributionId) :
    ∃ latest, (s.db.revisions contributionId).getLast? = some latest ∧
      revisionConflict s caseId contributionId = .error (.conflict (some latest.revision)) := by
  obtain ⟨first, hfirst, hcase⟩ := h
  cases hlast : (s.db.revisions contributionId).getLast? with
  | none =>
    rw [getLast?_eq_none_iff.mp hlast] at hfirst
    cases hfirst
  | some latest =>
    have hlatest : latestOf caseId (s.db.revisions contributionId) = .ok latest := by
      unfold latestOf
      rw [hfirst, hlast]
      exact if_pos hcase
    refine ⟨latest, rfl, ?_⟩
    unfold revisionConflict
    rw [hlatest]

theorem step_report (hphase : s.phase i = .refused) :
    (contributionStep env calls s (.report i)).phase i =
      .returned (afterViolation env s.store (calls i).2) := by
  dsimp only [contributionStep]
  rw [hphase]
  exact goOn_phase_self s i _

theorem step_reported (hkept : ContributionsKept env calls s)
    (hrevises : (calls i).2.revises = some (caseId, contributionId))
    (hphase : s.phase i = .refused) :
    ∃ latest, (s.store.db.revisions contributionId).getLast? = some latest ∧
      (contributionStep env calls s (.report i)).phase i =
        .returned (.error (.conflict (some latest.revision))) := by
  have hcall := hkept.call i
  rw [hphase] at hcall
  obtain ⟨latest, hlast, hconflict⟩ := revisionConflict_of_inCase (hcall _ _ hrevises)
  refine ⟨latest, hlast, ?_⟩
  rw [step_report hphase, ← hconflict]
  revert hrevises
  cases (calls i).2 with
  | addContribution => exact fun h => by cases h
  | reviseContribution | tombstoneContribution | setHypothesisStatus =>
    rintro ⟨⟩
    rfl

theorem created_once (hkept : ContributionsKept env calls s) {j : Nat} {actor' : Actor}
    {input' : ContributionWriteInput} {origin' : JsString} {row' : RevisionRow}
    (hi : (calls i).2 = .addContribution caseId actor input origin)
    (hj : (calls j).2 = .addContribution caseId actor' input' origin')
    (hactor : actor'.id = actor.id) (hkey : input.idempotencyKey = some key)
    (hkey' : input'.idempotencyKey = some key) (hrow : s.phase i = .returned (.ok row))
    (hrow' : s.phase j = .returned (.ok row')) :
    row' = row ∧ row.revision = 1 ∧
      requestDigest env actor' input' = requestDigest env actor input := by
  have hstored := hkept.call i
  have hstored' := hkept.call j
  rw [hrow] at hstored
  rw [hrow'] at hstored'
  obtain ⟨intent, hintent, hdigest, hfirst⟩ := hstored _ _ _ _ hi key hkey
  obtain ⟨intent', hintent', hdigest', hfirst'⟩ := hstored' _ _ _ _ hj key hkey'
  rw [hactor, hintent] at hintent'
  cases hintent'
  refine ⟨Option.some.inj (hfirst'.symm.trans hfirst), ?_, hdigest'.trans hdigest.symm⟩
  rw [head?_eq_getElem?] at hfirst
  exact (hkept.chain _).revision 0 row hfirst

theorem createdOf_of_head {id : JsString} {chain : List RevisionRow} (hchain : ChainOk id chain)
    (hhead : chain.head? = some row) (hcase : row.caseId = caseId) :
    createdOf caseId chain = .ok row := by
  have hfirst : chain.find? (·.revision = 1) = some row := by
    obtain ⟨rest, rfl⟩ := head?_eq_some_iff.mp hhead
    exact find?_cons_of_pos (decide_eq_true (hchain.revision 0 row rfl))
  unfold createdOf
  rw [hfirst]
  exact if_pos hcase

theorem step_start (hphase : s.phase i = .idle) :
    contributionStep env calls s (.start i) =
      s.prepared i (prepare env (calls i).1 s.store (calls i).2) := by
  dsimp only [contributionStep]
  rw [hphase]

theorem checkContribution_work (db : CaseDb) :
    (checkContribution env caseId actor input ⟨db, []⟩).2 = ⟨db, []⟩ := by
  have hmade : Sql.Made .failed Eq (checkContribution env caseId actor input) :=
    made_checkContribution Eq.refl
  have hdb := hmade.keeps Eq.refl (fun _ _ _ => Eq.trans) ⟨db, []⟩
  have hfaults := hmade.faults_nil (w := ⟨db, []⟩) rfl
  cases hw : (checkContribution env caseId actor input ⟨db, []⟩).2 with
  | mk db' faults =>
    rw [hw] at hdb hfaults
    cases hdb
    cases hfaults
    rfl

theorem prepare_replays {s : ContributionDb} (hkey : input.idempotencyKey = some key)
    (hexisting : s.contributionIntents (caseId, actor.id, key) = some existing)
    (hdigest : requestDigest env actor input = .ok existing.requestDigest)
    (hchecked : (checkContribution env caseId actor input ⟨s.db, []⟩).1 = .ok checked)
    (hcreated : createdOf caseId (s.db.revisions existing.contributionId) = .ok row) :
    prepare env stamp s (.addContribution caseId actor input origin) = .ok (.returns row) := by
  have hcheck : checkContribution env caseId actor input ⟨s.db, []⟩ = (.ok checked, ⟨s.db, []⟩) :=
    Prod.ext hchecked (checkContribution_work s.db)
  have hsame : digestOf env input checked.links checked.sourceId = existing.requestDigest :=
    Except.ok.inj ((checkContribution_digest hcheck).symm.trans hdigest)
  have hfound : (input.idempotencyKey.bind fun key => s.contributionIntents (caseId, actor.id, key))
      = some existing := by
    rw [hkey]
    exact hexisting
  have hload : loadContribution caseId existing.contributionId ⟨s.db, []⟩ =
      (.ok row, ⟨s.db, []⟩) := by
    have hselect : listRevisions existing.contributionId ⟨s.db, []⟩ =
        (.ok (s.db.revisions existing.contributionId), ⟨s.db, []⟩) := rfl
    exact (Sql.bind_of_ok hselect).trans (Sql.lift_ok.mpr ⟨hcreated, rfl⟩)
  have hrun : prepareContribution env stamp s caseId actor input origin ⟨s.db, []⟩ =
      (.ok (.returns row), ⟨s.db, []⟩) := by
    refine (Sql.bind_of_ok hcheck).trans ?_
    rw [hfound]
    dsimp only
    rw [if_neg (not_not.mpr hsame.symm)]
    exact Sql.bind_of_ok hload
  exact congrArg Prod.fst hrun

theorem afterViolation_replays {s : ContributionDb} (hkey : input.idempotencyKey = some key)
    (hexisting : s.contributionIntents (caseId, actor.id, key) = some existing)
    (hdigest : requestDigest env actor input = .ok existing.requestDigest)
    (hcreated : createdOf caseId (s.db.revisions existing.contributionId) = .ok row) :
    afterViolation env s (.addContribution caseId actor input origin) = .ok row := by
  rw [afterViolation, hkey]
  dsimp only
  rw [hdigest]
  change replayContributionWrite s caseId actor.id key existing.requestDigest = _
  unfold replayContributionWrite
  rw [hexisting]
  dsimp only
  rw [if_neg (not_not.mpr rfl), hcreated]
  rfl

theorem step_replayed (hkept : ContributionsKept env calls s)
    (hi : (calls i).2 = .addContribution caseId actor input origin)
    (hkey : input.idempotencyKey = some key)
    (hexisting : s.store.contributionIntents (caseId, actor.id, key) = some existing)
    (hdigest : requestDigest env actor input = .ok existing.requestDigest) :
    ∃ row, (s.store.db.revisions existing.contributionId).head? = some row ∧ row.revision = 1 ∧
      (s.phase i = .idle →
        (∃ checked, (checkContribution env caseId actor input ⟨s.store.db, []⟩).1 = .ok checked) →
        (contributionStep env calls s (.start i)).phase i = .returned (.ok row)) ∧
      (s.phase i = .refused →
        (contributionStep env calls s (.report i)).phase i = .returned (.ok row)) := by
  obtain ⟨hintent, row, hrow, hcase⟩ := hkept.intent _ _ hexisting
  have hchain := hkept.chain existing.contributionId
  have hcreated : createdOf caseId (s.store.db.revisions existing.contributionId) = .ok row :=
    createdOf_of_head hchain hrow (hcase.trans (congrArg Prod.fst hintent))
  refine ⟨row, hrow, ?_, fun hphase ⟨checked, hchecked⟩ => ?_, fun hphase => ?_⟩
  · rw [head?_eq_getElem?] at hrow
    exact hchain.revision 0 row hrow
  · rw [step_start hphase, hi, prepare_replays hkey hexisting hdigest hchecked hcreated]
    exact goOn_phase_self s i _
  · rw [step_report hphase, hi, afterViolation_replays hkey hexisting hdigest hcreated]

/-- Whatever the order of the calls, contributions are chains of revisions that only grow, one
writer of a revision commits, and one creation of a key. -/
theorem contributions_of_run {start : ContributionState} (hstart : NoContributions start)
    (hrun : ContributionRun env calls start s) : ContributionLaw env calls s := by
  have hkept : ContributionsKept env calls s :=
    hrun.invariant (P := ContributionsKept env calls) hstart.kept fun _ m h _ => step_kept m h
  exact
    { chain := hkept.chain
      grows := contributionStep_extends env calls s
      traceless := fun _ _ => step_traceless
      revised := fun _ _ _ _ _ _ _ _ _ _ => step_revised hkept
      wins := fun _ _ => step_wins
      loses := fun _ _ _ _ hphase hreturned hid hrevision _ =>
        step_loses hphase hreturned hid hrevision
      reported := fun _ _ _ => step_reported hkept
      created := fun _ _ _ _ _ _ _ _ _ _ _ _ => created_once hkept
      replayed := fun _ _ _ _ _ _ _ => step_replayed hkept }

def sourceEnv : ContributionEnv where
  toCaseEnv := plainEnv
  contributionWriteDigest input := input.body
  resolveSourceId actor _ := .ok actor.id

/-- Two creations with one key, then a revision and a tombstone of what they made. -/
def racingCalls : Nat → Stamp × ContributionCall
  | 0 => ({ noonStamp with uuid := [5] }, .addContribution [1] ⟨[7], [7]⟩
      { kind := JsString.ofString "note", body := [2]
        idempotencyKey := JsString.ofString "create-1" }
      [])
  | 1 => ({ noonStamp with uuid := [6] }, .addContribution [1] ⟨[7], [7]⟩
      { kind := JsString.ofString "note", body := [2]
        idempotencyKey := JsString.ofString "create-1" }
      [])
  | 2 => (noonStamp, .reviseContribution [1] [5] ⟨[7], [7]⟩ [3] [] 1 none)
  | _ => (noonStamp, .tombstoneContribution [1] [5] ⟨[8], [8]⟩ [])

def racingMoves : List ContributionMove :=
  [.start 0, .start 1, .commit 0, .commit 1, .start 2, .start 3, .commit 3, .commit 2, .report 1]

/-- The second creation is rolled back and gets the contribution of the first. The tombstone comes
before the revision, which is rolled back and not reported yet. -/
theorem contributions_of_run_racing :
    ContributionLaw sourceEnv racingCalls
      (racingMoves.foldl (contributionStep sourceEnv racingCalls)
        ⟨⟨oneCase, fun _ => none⟩, fun _ => .idle⟩) :=
  contributions_of_run ⟨fun _ => rfl, fun _ => rfl, fun _ => rfl⟩
    (Reached.foldl .start fun _ _ _ => trivial)

end ContextDesk
