import ContextDesk.LogAnalysis.SuppressionCalls

/-!
# What validation accepts

`ValidDocument` says as one structure what `validateDocument` checks step by step
(`validateDocument_ok`), and `reserveOf` is the audit reserve of a list of rules. The lemmas on
`ValidDocument` are about the ways in which calls change a document: a further audit entry, a
changed rule, no previews.
-/

namespace ContextDesk.LogAnalysis

open Lib List

variable {lib : SuppressionLibrary}

/-! ## The audit reserve -/

/-- The audit entries that the rules still need to be disabled and removed. -/
def reserveOf (rules : List SuppressionRule) : Nat :=
  (rules.map fun rule => rule.state.reserve).sum

theorem reversalAuditReserveStates_ok {states : List SuppressionRuleState} {n : Nat} :
    reversalAuditReserveStates states = .ok n ↔
      n = (states.map SuppressionRuleState.reserve).sum ∧ n ≤ usizeMax := by
  have hfold : ∀ (states : List SuppressionRuleState) (start : Nat), start ≤ usizeMax →
      (states.foldlM (fun reserve state => do
        ensure (reserve + state.reserve ≤ usizeMax) "suppression audit reserve overflow"
        pure (reserve + state.reserve)) start = Except.ok n ↔
      n = start + (states.map SuppressionRuleState.reserve).sum ∧ n ≤ usizeMax) := by
    intro states
    induction states with
    | nil =>
      intro start hstart
      rw [foldlM_nil, pure_ok, map_nil, sum_nil]
      omega
    | cons state rest ih =>
      intro start hstart
      simp only [foldlM_cons, bind_ok, pure_ok, map_cons, sum_cons]
      constructor
      · rintro ⟨_, ⟨_, hle, rfl⟩, hrest⟩
        have hle := ensure_ok.mp hle
        obtain ⟨rfl, hn⟩ := (ih _ hle).mp hrest
        omega
      · rintro ⟨rfl, hn⟩
        have hle : start + state.reserve ≤ usizeMax := by omega
        refine ⟨start + state.reserve, ⟨(), ensure_ok.mpr hle, rfl⟩, ?_⟩
        rw [ih _ hle]
        omega
  unfold reversalAuditReserveStates
  rw [hfold states 0 (Nat.zero_le _), Nat.zero_add]

variable {rules : List SuppressionRule}

theorem reversalAuditReserve_ok {n : Nat} :
    reversalAuditReserve rules = .ok n ↔ n = reserveOf rules ∧ n ≤ usizeMax := by
  unfold reversalAuditReserve reserveOf
  rw [reversalAuditReserveStates_ok, map_map]
  rfl

variable {u : Unit}

theorem ensureAuditCapacityFor_ok {document : SuppressionDocument} {entries reserve : Nat} :
    ensureAuditCapacityFor document entries reserve = .ok u ↔
      document.audit.length + entries + reserve ≤ maxSuppressionAuditEntries := by
  simp only [ensureAuditCapacityFor, bind_ok, ensure_ok]
  unfold usizeMax maxSuppressionAuditEntries
  constructor
  · rintro ⟨_, -, h⟩
    omega
  · intro h
    exact ⟨(), by omega, by omega⟩

theorem reserveOf_set (rules : List SuppressionRule) (i : Fin rules.length)
    (rule : SuppressionRule) :
    reserveOf (rules.set i rule) + (rules.get i).state.reserve =
      reserveOf rules + rule.state.reserve := by
  unfold reserveOf
  obtain ⟨i, hi⟩ := i
  induction rules generalizing i with
  | nil => cases hi
  | cons r rules ih =>
    cases i with
    | zero =>
      show rule.state.reserve + _ + r.state.reserve = r.state.reserve + _ + rule.state.reserve
      omega
    | succ i =>
      have := ih i (Nat.lt_of_succ_lt_succ hi)
      simp only [set_cons_succ, map_cons, sum_cons, get_cons_succ] at this ⊢
      omega

theorem reserveOf_eq (rules : List SuppressionRule) :
    reserveOf rules = 2 * rules.countP (fun rule => rule.state = .enabled) +
      rules.countP fun rule => rule.state = .disabled := by
  unfold reserveOf
  induction rules with
  | nil => rfl
  | cons rule rules ih =>
    rw [map_cons, sum_cons, ih, countP_cons, countP_cons]
    cases h : rule.state <;> simp [SuppressionRuleState.reserve] <;> omega

/-! ## Rules and audit -/

structure RuleValid (lib : SuppressionLibrary) (rule : SuppressionRule) : Prop where
  id : lib.isUuidV7 rule.id = true
  texts : validateRuleMetadata rule.name rule.rationale = .ok ()
  times : rule.createdAt ≤ rule.updatedAt
  human : rule.state = .enabled → rule.origin = .human

theorem validateUuidV7_ok {kind value : String} :
    validateUuidV7 lib kind value = .ok u ↔ lib.isUuidV7 value = true := ensure_ok

theorem validateRules_ok {seen : List String} :
    validateRules lib seen rules = .ok u ↔
      (∀ rule ∈ rules, RuleValid lib rule) ∧ (rules.map SuppressionRule.id).Nodup ∧
        ∀ rule ∈ rules, rule.id ∉ seen := by
  induction rules generalizing seen with
  | nil => simp [validateRules, pure_ok]
  | cons rule rest ih =>
    simp only [validateRules, bind_ok, validateUuidV7_ok, ensure_ok, ih]
    constructor
    · rintro ⟨_, huuid, _, hseen, _, htexts, _, htimes, _, hhuman, hrest, hnodup, hids⟩
      refine ⟨?_, ?_, ?_⟩
      · refine forall_mem_cons.mpr ⟨⟨huuid, htexts, by omega, ?_⟩, hrest⟩
        intro hs
        by_contra ho
        exact hhuman ⟨hs, ho⟩
      · refine nodup_cons.mpr ⟨fun hmem => ?_, hnodup⟩
        obtain ⟨other, hother, heq⟩ := mem_map.mp hmem
        exact hids other hother (heq ▸ mem_cons_self)
      · refine forall_mem_cons.mpr ⟨hseen, fun other hother hmem => ?_⟩
        exact hids other hother (mem_cons_of_mem _ hmem)
    · rintro ⟨hvalid, hnodup, hids⟩
      obtain ⟨hrule, hrest⟩ := forall_mem_cons.mp hvalid
      obtain ⟨hnot, hnodup⟩ := nodup_cons.mp hnodup
      obtain ⟨hseen, hids⟩ := forall_mem_cons.mp hids
      have htimes := hrule.times
      refine ⟨(), hrule.id, (), hseen, (), hrule.texts, (), by omega, (), ?_, hrest, hnodup, ?_⟩
      · rintro ⟨hs, ho⟩
        exact ho (hrule.human hs)
      · intro other hother hmem
        rcases mem_cons.mp hmem with heq | hmem
        · exact hnot (heq ▸ mem_map_of_mem hother)
        · exact hids other hother hmem

/-- What validation accepts of one audit entry, under a document revision. -/
structure EntryValid (lib : SuppressionLibrary) (revision : Nat) (entry : SuppressionAuditEntry) :
    Prop where
  id : lib.isUuidV7 entry.id = true
  published : entry.revision ≤ revision
  ruleId : ∀ ruleId ∈ entry.ruleId, lib.isUuidV7 ruleId = true
  previewToken : ∀ token ∈ entry.previewToken, lib.isUuidV7 token = true

/-- An audit whose entries are valid and in order. -/
structure AuditValid (lib : SuppressionLibrary) (revision : Nat)
    (audit : List SuppressionAuditEntry) : Prop where
  entries : ∀ entry ∈ audit, EntryValid lib revision entry
  ids : (audit.map SuppressionAuditEntry.id).Nodup
  increasing : audit.Pairwise fun a b => a.revision < b.revision

theorem validateAudit_ok {revision : Nat} {seen : List String} {previous : Nat}
    {audit : List SuppressionAuditEntry} :
    validateAudit lib revision seen previous audit = .ok u ↔
      AuditValid lib revision audit ∧
        ∀ entry ∈ audit, entry.id ∉ seen ∧ previous < entry.revision := by
  induction audit generalizing seen previous with
  | nil =>
    simp only [validateAudit, pure_ok, not_mem_nil, false_implies, implies_true, and_true]
    exact iff_of_true trivial ⟨by simp, by simp, .nil⟩
  | cons entry rest ih =>
    simp only [validateAudit, bind_ok, validateUuidV7_ok, ensure_ok, ensureAll_ok, ih,
      Option.mem_toList]
    constructor
    · rintro ⟨_, huuid, _, hseen, _, hrev, _, hrule, _, htoken, hrest, hlater⟩
      refine ⟨⟨?_, ?_, ?_⟩, ?_⟩
      · exact forall_mem_cons.mpr ⟨⟨huuid, by omega, hrule, htoken⟩, hrest.entries⟩
      · refine nodup_cons.mpr ⟨fun hmem => ?_, hrest.ids⟩
        obtain ⟨other, hother, heq⟩ := mem_map.mp hmem
        exact (hlater other hother).1 (heq ▸ mem_cons_self)
      · exact pairwise_cons.mpr ⟨fun other h => (hlater other h).2, hrest.increasing⟩
      · refine forall_mem_cons.mpr ⟨⟨hseen, by omega⟩, fun other hother => ⟨?_, ?_⟩⟩
        · exact fun hmem => (hlater other hother).1 (mem_cons_of_mem _ hmem)
        · have := (hlater other hother).2
          omega
    · rintro ⟨hvalid, hlater⟩
      obtain ⟨hentry, hentries⟩ := forall_mem_cons.mp hvalid.entries
      obtain ⟨hnot, hids⟩ := nodup_cons.mp hvalid.ids
      obtain ⟨hhead, hincreasing⟩ := pairwise_cons.mp hvalid.increasing
      obtain ⟨⟨hseen, hprev⟩, hlater⟩ := forall_mem_cons.mp hlater
      have hpub := hentry.published
      refine ⟨(), hentry.id, (), hseen, (), by omega, (), hentry.ruleId, (), hentry.previewToken,
        ⟨hentries, hids, hincreasing⟩, fun other hother => ⟨fun hmem => ?_, hhead other hother⟩⟩
      rcases mem_cons.mp hmem with heq | hmem
      · exact hnot (heq ▸ mem_map_of_mem hother)
      · exact (hlater other hother).1 hmem

/-! ## Documents -/

structure ValidDocument (lib : SuppressionLibrary) (corpusId : String) (d : SuppressionDocument) :
    Prop where
  schema : d.schemaVersion = suppressionSchemaVersion
  corpus : d.corpusId = corpusId
  corpusText : validateBoundedText "corpus id" corpusId maxCorpusIdBytes = .ok ()
  fewRules : d.rules.length ≤ maxSuppressionRules
  fewPreviews : d.previews.length ≤ maxSuppressionPreviews
  rules : ∀ rule ∈ d.rules, RuleValid lib rule
  ids : (d.rules.map SuppressionRule.id).Nodup
  reserve : d.audit.length + reserveOf d.rules ≤ maxSuppressionAuditEntries
  previews : validatePreviews lib corpusId d.revision [] d.previews = .ok ()
  audit : AuditValid lib d.revision d.audit
  positive : ∀ entry ∈ d.audit, 0 < entry.revision
  fresh : d.revision = 0 → d.rules = [] ∧ d.previews = [] ∧ d.audit = []
  latest : 0 < d.revision → ∃ entry ∈ d.audit.getLast?, entry.revision = d.revision

theorem validateDocument_ok {d : SuppressionDocument} {corpusId : String} :
    validateDocument lib d corpusId = .ok u ↔ ValidDocument lib corpusId d := by
  have hlast : ¬ (d.audit.getLast?.all fun entry => decide (entry.revision ≠ d.revision)) = true ↔
      ∃ entry ∈ d.audit.getLast?, entry.revision = d.revision := by
    cases d.audit.getLast? <;> simp
  simp only [validateDocument, bind_ok, ensure_ok, validateRules_ok, reversalAuditReserve_ok,
    ensureAuditCapacityFor_ok, validateAudit_ok]
  constructor
  · rintro ⟨_, -, _, hschema, _, htext, _, hcorpus, _, hrules, _, hpreviews, _, -, _,
      ⟨hvalid, hids, -⟩, _, ⟨rfl, -⟩, _, hreserve, _, hprev, _, ⟨haudit, hpos⟩, _, hzero, hlatest⟩
    rw [hcorpus] at htext hprev
    refine ⟨hschema, hcorpus, htext, by omega, by omega, hvalid, hids, by omega, hprev, haudit,
      fun e he => (hpos e he).2, fun h0 => ?_, fun h0 => ?_⟩
    · by_contra hne
      refine hzero ⟨h0, ?_⟩
      by_contra hall
      push Not at hall
      exact hne hall
    · rw [← hlast]
      exact fun hall => hlatest ⟨h0, hall⟩
  · intro h
    have hreserve := h.reserve
    have hschema := h.schema
    have hfr := h.fewRules
    have hfp := h.fewPreviews
    refine ⟨(), by omega, (), hschema, (), ?_, (), h.corpus, (), by omega, (), by omega, (),
      by omega, (), ⟨h.rules, h.ids, by simp⟩, _, ⟨rfl, ?_⟩, (), by omega, (), ?_, (),
      ⟨h.audit, fun e he => ⟨by simp, h.positive e he⟩⟩, (), ?_, ?_⟩
    · rw [h.corpus]
      exact h.corpusText
    · unfold usizeMax
      unfold maxSuppressionAuditEntries at hreserve
      omega
    · rw [h.corpus]
      exact h.previews
    · rintro ⟨h0, hne⟩
      obtain ⟨h1, h2, h3⟩ := h.fresh h0
      simp [h1, h2, h3] at hne
    · rintro ⟨h0, hall⟩
      exact hlast.mpr (h.latest h0) hall

theorem validDocument_empty {corpusId : String}
    (h : validateBoundedText "corpus id" corpusId maxCorpusIdBytes = .ok ()) :
    ValidDocument lib corpusId (emptyDocument corpusId) := by
  refine ⟨rfl, rfl, h, Nat.zero_le _, Nat.zero_le _, by simp [emptyDocument],
    nodup_nil, Nat.zero_le _, rfl, ⟨by simp [emptyDocument], nodup_nil, .nil⟩,
    by simp [emptyDocument], fun _ => ⟨rfl, rfl, rfl⟩, fun h => absurd h (Nat.lt_irrefl 0)⟩

theorem AuditValid.append {revision : Nat} {audit : List SuppressionAuditEntry}
    {entry : SuppressionAuditEntry} (h : AuditValid lib revision audit)
    (hentry : EntryValid lib (revision + 1) entry) (hrev : entry.revision = revision + 1)
    (hid : ∀ other ∈ audit, other.id ≠ entry.id) :
    AuditValid lib (revision + 1) (audit ++ [entry]) := by
  refine ⟨?_, ?_, ?_⟩
  · intro other hother
    rcases mem_append.mp hother with hother | hother
    · have hvalid := h.entries other hother
      exact ⟨hvalid.id, Nat.le_succ_of_le hvalid.published, hvalid.ruleId, hvalid.previewToken⟩
    · rw [mem_singleton.mp hother]
      exact hentry
  · rw [map_append, map_singleton, nodup_append_comm, singleton_append,
      nodup_cons]
    refine ⟨fun hmem => ?_, h.ids⟩
    obtain ⟨other, hother, heq⟩ := mem_map.mp hmem
    exact hid other hother heq
  · refine pairwise_append.mpr ⟨h.increasing, pairwise_singleton _ _, ?_⟩
    intro a ha b hb
    rw [mem_singleton.mp hb, hrev]
    exact Nat.lt_succ_of_le (h.entries a ha).published

theorem map_id_set {i : Fin rules.length} {rule : SuppressionRule}
    (hid : rule.id = (rules.get i).id) :
    (rules.set i rule).map SuppressionRule.id = rules.map SuppressionRule.id := by
  rw [map_set, hid]
  refine ext_getElem (by simp) fun n h₁ h₂ => ?_
  rw [getElem_set]
  split
  · rename_i heq
    simp [← heq]
  · rfl

/-- A document whose rule at `i` changes, with the entry that records the change. -/
theorem ValidDocument.changed {corpusId : String} {d : SuppressionDocument}
    (h : ValidDocument lib corpusId d) {i : Fin d.rules.length} {rule : SuppressionRule}
    {entry : SuppressionAuditEntry} (hrule : RuleValid lib rule)
    (hid : rule.id = (d.rules.get i).id)
    (hreserve : rule.state.reserve + 1 ≤ (d.rules.get i).state.reserve)
    (hentry : EntryValid lib (d.revision + 1) entry) (hrev : entry.revision = d.revision + 1)
    (hfresh : ∀ other ∈ d.audit, other.id ≠ entry.id) :
    ValidDocument lib corpusId
      { d with
        rules := d.rules.set i rule, previews := [], revision := d.revision + 1
        audit := d.audit ++ [entry] } := by
  have hsum := reserveOf_set d.rules i rule
  have hcap := h.reserve
  refine ⟨h.schema, h.corpus, h.corpusText, ?_, Nat.zero_le _, ?_, ?_, ?_, rfl,
    h.audit.append hentry hrev hfresh, ?_, fun h0 => absurd h0 (Nat.succ_ne_zero _), fun _ => ?_⟩
  · rw [length_set]
    exact h.fewRules
  · intro other hother
    rcases mem_or_eq_of_mem_set hother with hother | rfl
    · exact h.rules other hother
    · exact hrule
  · rw [map_id_set hid]
    exact h.ids
  · rw [length_append, length_singleton]
    show d.audit.length + 1 + reserveOf (d.rules.set i rule) ≤ maxSuppressionAuditEntries
    omega
  · intro other hother
    rcases mem_append.mp hother with hother | hother
    · exact h.positive other hother
    · rw [mem_singleton.mp hother, hrev]
      exact Nat.succ_pos _
  · exact ⟨entry, by simp, hrev⟩

end ContextDesk.LogAnalysis
