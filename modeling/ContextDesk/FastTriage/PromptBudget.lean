import ContextDesk.FastTriage.Prompt
import ContextDesk.FastTriage.RouteRuns
import ContextDesk.InvestigationAuthority

/-!
# The size of the prompts

The route measures the first prompt only. The calls of a run answer each other (`Answering`): each
one after the first repeats the first prompt behind the instruction for the first category of the
reply before it, so it fits exactly when that instruction fits in the room that the first prompt
leaves (`calls_fit_iff`).
-/

namespace ContextDesk

open Lib List

/-! ## Sizes -/

theorem estimate_fastTriageMessages (userText : String) (packet : FastTriagePacketV1)
    (evidence : String) (category : Option FastTriageFailureCategory) :
    estimateContextChars (fastTriageMessages userText packet evidence category) =
      estimateContextChars (fastTriageMessages userText packet evidence none) +
        (correctionBlock category).utf8ByteSize := by
  have hempty : (correctionBlock none).utf8ByteSize = 0 := rfl
  unfold estimateContextChars fastTriageMessages
  simp only [map_cons, map_nil, sum_cons, sum_nil, String.utf8ByteSize_append,
    hempty]
  omega

section

variable {E : Type} (tools : FastTriageTools) (inputs : FastTriageInputs)

def packingBudget : Nat := synthesisPackingBudget inputs.budget.contextCharBudget

/-- The messages of an attempt after a rejection for the category. -/
def promptOf (category : Option FastTriageFailureCategory) : List ChatMessage :=
  tools.messages inputs.userText inputs.packet (tools.evidenceBlock inputs.packet) category

/-- The first prompt leaves room for the instruction on the category. -/
def LeavesRoom (category : Option FastTriageFailureCategory) : Prop :=
  estimateContextChars (promptOf tools inputs none) + (correctionBlock category).utf8ByteSize ≤
    packingBudget inputs

/-- The first category that a reply is rejected for. -/
def firstCategory (reply : Reply E) : Option FastTriageFailureCategory :=
  (judgeReply tools inputs.packet reply).2.categories.head?

/-! ## The calls answer each other -/

/-- Each call sends the prompt for the category that the reply before it was rejected for. -/
def Answering : Option FastTriageFailureCategory → List (ProviderCall E) → Prop
  | _, [] => True
  | category, call :: rest =>
    call.messages = promptOf tools inputs category ∧
      (rest ≠ [] → call.RejectedByModel tools inputs.packet) ∧
      Answering (firstCategory tools inputs call.reply) rest

def nextCategory : Option FastTriageFailureCategory → List (ProviderCall E) →
    Option FastTriageFailureCategory
  | category, [] => category
  | _, call :: rest => nextCategory (firstCategory tools inputs call.reply) rest

variable {tools inputs}

variable {call : ProviderCall E}

theorem Answering.append {category : Option FastTriageFailureCategory}
    {calls : List (ProviderCall E)} (h : Answering tools inputs category calls)
    (hmodels : ∀ c ∈ calls, c.RejectedByModel tools inputs.packet)
    (hmessages : call.messages = promptOf tools inputs (nextCategory tools inputs category calls)) :
    Answering tools inputs category (calls ++ [call]) := by
  induction calls generalizing category with
  | nil => exact ⟨hmessages, fun h => absurd rfl h, trivial⟩
  | cons first calls ih =>
    obtain ⟨hfirst, -, hrest⟩ := h
    obtain ⟨hmodel, hmodels⟩ := forall_mem_cons.mp hmodels
    exact ⟨hfirst, fun _ => hmodel, ih hrest hmodels hmessages⟩

theorem Answering.of_split {category : Option FastTriageFailureCategory}
    {before after : List (ProviderCall E)} {next : ProviderCall E}
    (h : Answering tools inputs category (before ++ call :: next :: after)) :
    call.RejectedByModel tools inputs.packet ∧
      next.messages = promptOf tools inputs (firstCategory tools inputs call.reply) := by
  induction before generalizing category with
  | nil => exact ⟨h.2.1 (cons_ne_nil _ _), h.2.2.1⟩
  | cons first before ih => exact ih h.2.2

theorem eq_head_or_after {α : Type} {l : List α} {a : α} (h : a ∈ l) :
    l.head? = some a ∨ ∃ before b after, l = before ++ b :: a :: after := by
  induction l with
  | nil => cases h
  | cons c l ih =>
    rcases mem_cons.mp h with rfl | h
    · exact Or.inl rfl
    · right
      rcases ih h with hhead | ⟨before, b, after, rfl⟩
      · obtain ⟨rest, rfl⟩ := head?_eq_some_iff.mp hhead
        exact ⟨[], c, rest, rfl⟩
      · exact ⟨c :: before, b, after, rfl⟩

/-- The calls of a chain that starts with a prompt that fits. -/
theorem Answering.fit_iff
    (hmessages : tools.messages = fastTriageMessages) {calls : List (ProviderCall E)}
    (h : Answering tools inputs none calls)
    (hfirst : calls ≠ [] → estimateContextChars (promptOf tools inputs none) ≤
      packingBudget inputs) :
    (∀ call ∈ calls, estimateContextChars call.messages ≤ packingBudget inputs) ↔
      ∀ before call next after, calls = before ++ call :: next :: after →
        LeavesRoom tools inputs (firstCategory tools inputs call.reply) := by
  have hsize : ∀ category, estimateContextChars (promptOf tools inputs category) =
      estimateContextChars (promptOf tools inputs none) +
        (correctionBlock category).utf8ByteSize := by
    intro category
    unfold promptOf
    rw [hmessages]
    exact estimate_fastTriageMessages _ _ _ _
  constructor
  · rintro hfit before call next after rfl
    have hnext := hfit next (by simp)
    rwa [(h.of_split).2, hsize] at hnext
  · intro hroom call hcall
    rcases eq_head_or_after hcall with hhead | ⟨before, first, after, rfl⟩
    · obtain ⟨rest, rfl⟩ := head?_eq_some_iff.mp hhead
      rw [h.1]
      exact hfirst (cons_ne_nil _ _)
    · rw [(h.of_split).2, hsize]
      exact hroom before first call after rfl

/-! ## The calls of a run -/

variable (world : World E)

theorem runAttempt_call (tools : FastTriageTools) (packet : FastTriagePacketV1)
    (backend : Backend) (messages : List ChatMessage) (stage : FastTriageStage) (role : FastTriageRoleBinding)
    (s : RouteState E) :
    (runAttempt tools packet world backend messages stage role s).1 =
        (judgeReply tools packet (world s.calls backend messages)).2 ∧
      (runAttempt tools packet world backend messages stage role s).2.calls =
        s.calls ++ [⟨backend, messages, world s.calls backend messages⟩] := ⟨rfl, rfl⟩

theorem rejectedByModel_of_any {categories : List FastTriageFailureCategory}
    (h : (judgeReply tools inputs.packet call.reply).2 = .rejected categories)
    (hmodel : ¬ categories.any FastTriageFailureCategory.isHostSide = true) :
    call.RejectedByModel tools inputs.packet := by
  refine ⟨categories, h, fun c hc => Bool.eq_false_of_not_eq_true fun hside => ?_⟩
  exact hmodel (any_eq_true.mpr ⟨c, hc, hside⟩)

theorem primaryAttempts_answering (role : FastTriageRoleBinding) {attempts : List Nat}
    {correction : Option FastTriageFailureCategory}
    {categories : List FastTriageFailureCategory} (s : RouteState E)
    (hstart : ∀ attempt ∈ attempts.head?, attempt = 0 → correction = none)
    (hlater : 0 ∉ attempts.tail) (hcorrection : correction = categories.head?) :
    ∃ new : List (ProviderCall E),
      (primaryAttempts tools world inputs (tools.evidenceBlock inputs.packet) role attempts
        correction categories s).2.calls = s.calls ++ new ∧
      Answering tools inputs correction new ∧
      ∀ last, (primaryAttempts tools world inputs (tools.evidenceBlock inputs.packet) role
          attempts correction categories s).1 = .exhausted last →
        (∀ call ∈ new, call.RejectedByModel tools inputs.packet) ∧
          nextCategory tools inputs correction new = last.head? := by
  induction attempts generalizing correction categories s with
  | nil =>
    refine ⟨[], (append_nil _).symm, trivial, fun last h => ⟨by simp, ?_⟩⟩
    cases h
    exact hcorrection
  | cons attempt attempts ih =>
    have hcategory : (if attempt = 0 then none else correction) = correction := by
      split
      · exact (hstart attempt rfl ‹_›).symm
      · rfl
    rw [primaryAttempts, hcategory]
    generalize hupdate : (if attempt = 0 then s
      else { s with run := { s.run with correctionUsed := true,
                                        correctionCategory := correction } }) = t
    have ht : t.calls = s.calls := by
      rw [← hupdate]
      split <;> rfl
    obtain ⟨hresult, hcalls⟩ := runAttempt_call world tools inputs.packet .primary
      (promptOf tools inputs correction) (if attempt = 0 then .primary else .correction) role t
    rw [ht] at hresult hcalls
    unfold promptOf at hresult hcalls
    generalize runAttempt tools inputs.packet world .primary _ _ role t = r at *
    obtain ⟨result, s'⟩ := r
    generalize world s.calls .primary _ = reply at *
    -- an attempt that ends the loop leaves its one call behind
    have hone : ∀ last : PrimaryEnd E, (∀ cats, last ≠ .exhausted cats) →
        ∃ new : List (ProviderCall E), s'.calls = s.calls ++ new ∧
          Answering tools inputs correction new ∧ ∀ cats, last = .exhausted cats →
            (∀ call ∈ new, call.RejectedByModel tools inputs.packet) ∧
              nextCategory tools inputs correction new = cats.head? := fun last hlast =>
      ⟨_, hcalls, ⟨rfl, fun h => absurd rfl h, trivial⟩, fun cats h => absurd h (hlast cats)⟩
    cases result with
    | accepted envelope => exact hone _ fun _ h => by cases h
    | cancelled => exact hone _ fun _ h => by cases h
    | deadline => exact hone _ fun _ h => by cases h
    | providerFailed error => exact hone _ fun _ h => by cases h
    | rejected rejected =>
      dsimp only
      split
      · exact hone _ fun _ h => by cases h
      · rename_i hmodel
        have hzero : ∀ later ∈ attempts.head?, later = 0 → rejected.head? = none := by
          rintro later hhead rfl
          exact absurd (mem_of_mem_head? hhead) hlater
        obtain ⟨new, hnew, hanswering, hexhausted⟩ := ih s' hzero
          (fun h => hlater (mem_of_mem_tail h)) rfl
        have hcategory' : firstCategory tools inputs reply = rejected.head? := by
          rw [firstCategory, ← hresult]
          rfl
        have hrejected : ProviderCall.RejectedByModel tools inputs.packet
            ⟨.primary, promptOf tools inputs correction, reply⟩ :=
          rejectedByModel_of_any hresult.symm hmodel
        refine ⟨_ :: new, ?_, ⟨rfl, fun _ => hrejected, ?_⟩, fun last h => ⟨?_, ?_⟩⟩
        · rw [hnew, hcalls, append_assoc, singleton_append]
          rfl
        · rw [hcategory']
          exact hanswering
        · exact forall_mem_cons.mpr ⟨hrejected, (hexhausted last h).1⟩
        · rw [nextCategory, hcategory']
          exact (hexhausted last h).2

theorem escalate_calls (selected : SelectedFastRoute) (fallback : FastTriageFallback)
    (categories : List FastTriageFailureCategory) (s : RouteState E) :
    ∃ call : ProviderCall E, call.messages = promptOf tools inputs categories.head? ∧
      (escalate tools world inputs (tools.evidenceBlock inputs.packet) selected fallback categories
        s).2.calls = s.calls ++ [call] := by
  unfold escalate
  dsimp only
  generalize hstart : { s with run := { s.run with escalation := _ } } = t
  have ht : t.calls = s.calls := by rw [← hstart]
  obtain ⟨-, hcalls⟩ := runAttempt_call world tools inputs.packet .fallback
    (promptOf tools inputs categories.head?) .escalation
    ⟨fallback.profileId, fallback.modelId⟩ t
  rw [ht] at hcalls
  refine ⟨⟨.fallback, promptOf tools inputs categories.head?,
    world s.calls .fallback (promptOf tools inputs categories.head?)⟩, rfl, ?_⟩
  unfold promptOf at hcalls ⊢
  generalize runAttempt tools inputs.packet world .fallback _ _ _ t = r at *
  obtain ⟨result, s'⟩ := r
  cases result <;> exact hcalls

/-- The calls of a run, and the check that the first of them passed. -/
theorem runFastTriageRoute_answering (backend : Bool) :
    Answering tools inputs none (runFastTriageRoute tools world inputs backend).2.calls ∧
      ((runFastTriageRoute tools world inputs backend).2.calls ≠ [] →
        estimateContextChars (promptOf tools inputs none) ≤ packingBudget inputs) := by
  have hnone : Answering tools inputs none ([] : List (ProviderCall E)) ∧
      (([] : List (ProviderCall E)) ≠ [] →
        estimateContextChars (promptOf tools inputs none) ≤ packingBudget inputs) :=
    ⟨trivial, fun h => absurd rfl h⟩
  unfold runFastTriageRoute
  split
  · exact hnone
  · rename_i selected _
    unfold runSelected
    dsimp only
    split
    · exact hnone
    · split
      · exact hnone
      · split
        · exact hnone
        · rename_i hfits
          refine and_comm.mp ⟨fun _ => Nat.le_of_not_lt hfits, ?_⟩
          have hlater : 0 ∉ (List.range (inputs.budget.effectiveCorrections.toNat + 1)).tail := by
            rw [range_succ_eq_map]
            simp
          obtain ⟨new, hcalls, hanswering, hexhausted⟩ := @primaryAttempts_answering E tools
            inputs world selected.role _ none [] {} (fun _ _ _ => rfl) hlater rfl
          rw [nil_append] at hcalls
          generalize primaryAttempts tools world inputs _ selected.role _ none [] {} = r at *
          obtain ⟨last, s⟩ := r
          dsimp only at hcalls
          cases last with
          | verified envelope label => exact hcalls ▸ hanswering
          | hostSide categories => exact hcalls ▸ hanswering
          | cancelled => exact hcalls ▸ hanswering
          | deadline => exact hcalls ▸ hanswering
          | providerFailed error => exact hcalls ▸ hanswering
          | exhausted categories =>
            obtain ⟨hmodels, hnext⟩ := hexhausted categories rfl
            dsimp only
            split
            · split
              · obtain ⟨call, hmessages, hlast⟩ := @escalate_calls E tools inputs
                  world selected _ categories s
                rw [hlast, hcalls]
                exact hanswering.append hmodels (hnext ▸ hmessages)
              · exact hcalls ▸ hanswering
            · exact hcalls ▸ hanswering

/-! ## A reply that is rejected every time -/

/-- A second attempt is allowed: a correction, or an authorized fallback. -/
def Retries (inputs : FastTriageInputs) (backend : Bool) : Prop :=
  0 < inputs.budget.effectiveCorrections.toNat ∨
    backend = true ∧ ∃ fallback, inputs.fallback = some fallback ∧ fallback.authorized = true

section

variable {reply : Reply E} {categories : List FastTriageFailureCategory}
  (hrejected : (judgeReply tools inputs.packet reply).2 = .rejected categories)
  (hmodel : ∀ c ∈ categories, c.isHostSide = false)

include hrejected hmodel

theorem primaryAttempts_rejected (evidence : String) (role : FastTriageRoleBinding)
    (attempts : List Nat) (correction : Option FastTriageFailureCategory)
    (before : List FastTriageFailureCategory) (s : RouteState E) :
    ∃ new : List (ProviderCall E),
      (primaryAttempts tools (fun _ _ _ => reply) inputs evidence role attempts correction before
        s).2.calls = s.calls ++ new ∧
      new.length = attempts.length ∧ (∀ call ∈ new, call.reply = reply) ∧
      ∃ last, (primaryAttempts tools (fun _ _ _ => reply) inputs evidence role attempts correction
        before s).1 = .exhausted last := by
  induction attempts generalizing correction before s with
  | nil => exact ⟨[], (append_nil _).symm, rfl, by simp, before, rfl⟩
  | cons attempt attempts ih =>
    rw [primaryAttempts]
    generalize hupdate : (if attempt = 0 then s
      else { s with run := { s.run with correctionUsed := true,
                                        correctionCategory := correction } }) = t
    have ht : t.calls = s.calls := by
      rw [← hupdate]
      split <;> rfl
    obtain ⟨hresult, hcalls⟩ := runAttempt_call (fun _ _ _ => reply) tools inputs.packet .primary
      (tools.messages inputs.userText inputs.packet evidence
        (if attempt = 0 then none else correction))
      (if attempt = 0 then .primary else .correction) role t
    rw [ht] at hcalls
    rw [hrejected] at hresult
    generalize runAttempt tools inputs.packet _ .primary _ _ role t = r at *
    obtain ⟨result, s'⟩ := r
    obtain rfl : result = .rejected categories := hresult
    have hany : ¬ categories.any FastTriageFailureCategory.isHostSide = true := by
      intro h
      obtain ⟨c, hc, hside⟩ := any_eq_true.mp h
      rw [hmodel c hc] at hside
      cases hside
    obtain ⟨call, hcall, hone⟩ : ∃ call : ProviderCall E, call.reply = reply ∧
        s'.calls = s.calls ++ [call] := ⟨_, rfl, hcalls⟩
    obtain ⟨new, hnew, hlength, hreply, hlast⟩ := ih categories.head? categories s'
    dsimp only
    rw [if_neg hany]
    refine ⟨call :: new, ?_, congrArg (· + 1) hlength, forall_mem_cons.mpr ⟨hcall, hreply⟩,
      hlast⟩
    rw [hnew, hone, append_assoc, singleton_append]

theorem rejected_run {backend : Bool} (hstarts : ¬ DoesNotStart tools inputs)
    (hretries : Retries inputs backend) :
    ∃ (first next : ProviderCall E) (rest : List (ProviderCall E)),
      (runFastTriageRoute tools (fun _ _ _ => reply) inputs backend).2.calls =
        first :: next :: rest ∧ first.reply = reply := by
  unfold DoesNotStart at hstarts
  push Not at hstarts
  obtain ⟨hselected, hexpected, hcancelled, hfits⟩ := hstarts
  cases hselection : selectFastTriageRoute inputs.records (routeRequest tools inputs) with
  | notSelected rejection => exact absurd hselection (hselected rejection)
  | selected selected =>
    have hpacket : ¬ (inputs.expectedPacketId.any fun expected =>
        expected ≠ inputs.packet.packetId) = true := by
      intro h
      obtain ⟨expected, hsome, hne⟩ := (Option.any_eq_true _ _).mp h
      exact absurd (hexpected expected hsome) (of_decide_eq_true hne)
    unfold runFastTriageRoute runSelected
    dsimp only
    rw [hselection]
    dsimp only
    rw [if_neg hpacket, if_neg hcancelled, if_neg (Nat.not_lt_of_le hfits)]
    obtain ⟨new, hcalls, hlength, hreply, last, hlast⟩ := primaryAttempts_rejected hrejected hmodel
      (tools.evidenceBlock inputs.packet) selected.role
      (List.range (inputs.budget.effectiveCorrections.toNat + 1)) none [] {}
    rw [nil_append] at hcalls
    rw [length_range] at hlength
    generalize primaryAttempts tools _ inputs _ selected.role _ none [] {} = r at *
    obtain ⟨ended, s⟩ := r
    obtain rfl : ended = .exhausted last := hlast
    replace hcalls : s.calls = new := hcalls
    obtain ⟨first, others, rfl⟩ := exists_cons_of_length_eq_add_one hlength
    rw [length_cons, Nat.add_right_cancel_iff] at hlength
    have hfirst := hreply first mem_cons_self
    -- without an escalation the second attempt is the correction
    have hsecond : ¬ (backend = true ∧ ∃ fallback, inputs.fallback = some fallback ∧
          fallback.authorized = true) →
        ∃ (first' next : ProviderCall E) (rest : List (ProviderCall E)),
          first :: others = first' :: next :: rest ∧ first'.reply = reply := by
      intro hnone
      obtain ⟨next, rest, rfl⟩ := exists_cons_of_length_pos
        (lt_of_lt_of_eq (hretries.resolve_right hnone) hlength.symm)
      exact ⟨first, next, rest, rfl, hfirst⟩
    dsimp only
    split
    · rename_i fallback hfallback
      split
      · obtain ⟨call, -, hcall⟩ := @escalate_calls E tools inputs (fun _ _ _ => reply) selected
          fallback last s
        rw [hcall, hcalls]
        cases others with
        | nil => exact ⟨first, call, [], rfl, hfirst⟩
        | cons next rest => exact ⟨first, next, rest ++ [call], rfl, hfirst⟩
      · rename_i hauthorized
        refine hcalls ▸ hsecond ?_
        rintro ⟨-, other, hother, hok⟩
        obtain rfl := Option.some.inj (hfallback.symm.trans hother)
        exact hauthorized hok
    · rename_i hmissing
      refine hcalls ▸ hsecond ?_
      rintro ⟨hgiven, fallback, hfallback, -⟩
      exact hmissing fallback hfallback hgiven

end

/-! ## When every prompt fits -/

/-- Every prompt of the run is within the packing budget. -/
def PromptsFit (tools : FastTriageTools) (world : World E) (inputs : FastTriageInputs)
    (backend : Bool) : Prop :=
  ∀ call ∈ (runFastTriageRoute tools world inputs backend).2.calls,
    estimateContextChars call.messages ≤ packingBudget inputs

/-- In the run, each reply that another call follows leaves room for the instruction on its first
category. -/
def RoomAfterRejections (tools : FastTriageTools) (world : World E) (inputs : FastTriageInputs)
    (backend : Bool) : Prop :=
  ∀ before call next after,
    (runFastTriageRoute tools world inputs backend).2.calls = before ++ call :: next :: after →
    LeavesRoom tools inputs (firstCategory tools inputs call.reply)

theorem promptsFit_iff (hmessages : tools.messages = fastTriageMessages) (backend : Bool) :
    PromptsFit tools world inputs backend ↔ RoomAfterRejections tools world inputs backend := by
  obtain ⟨hanswering, hfirst⟩ :=
    @runFastTriageRoute_answering E tools inputs world backend
  exact hanswering.fit_iff hmessages hfirst

theorem no_second_call {backend : Bool} (h : ¬ Retries inputs backend) {first next : ProviderCall E}
    {before after : List (ProviderCall E)} :
    (runFastTriageRoute tools world inputs backend).2.calls ≠
      before ++ first :: next :: after := by
  intro heq
  unfold Retries at h
  push Not at h
  obtain ⟨primary, escalated, hcalls, -, -, hlength, -, honly⟩ :=
    (runFastTriageRoute_kept tools world inputs backend).calls
  have hnone : escalated = [] := by
    by_contra hne
    obtain ⟨⟨fallback, hfallback, hauthorized⟩, hgiven, -⟩ := honly hne
    exact h.2 hgiven fallback hfallback hauthorized
  have hcount := congrArg List.length (heq.symm.trans hcalls)
  rw [hnone, append_nil, length_append, length_cons, length_cons] at hcount
  have hzero := h.1
  omega

theorem all_promptsFit_iff (hmessages : tools.messages = fastTriageMessages) (backend : Bool) :
    (∀ world : World E, PromptsFit tools world inputs backend) ↔
      DoesNotStart tools inputs ∨ ¬ Retries inputs backend ∨
        ∀ (reply : Reply E) (categories : List FastTriageFailureCategory),
          (judgeReply tools inputs.packet reply).2 = .rejected categories →
          (∀ c ∈ categories, c.isHostSide = false) → LeavesRoom tools inputs categories.head? := by
  constructor
  · intro hfit
    by_contra hnot
    push Not at hnot
    obtain ⟨hstarts, hretries, reply, categories, hrejected, hmodel, hroom⟩ := hnot
    obtain ⟨first, next, rest, hcalls, hreply⟩ := rejected_run hrejected hmodel hstarts hretries
    have hleaves := (promptsFit_iff (fun _ _ _ => reply) hmessages backend).mp
      (hfit fun _ _ _ => reply) [] first next rest hcalls
    rw [firstCategory, hreply, hrejected] at hleaves
    exact hroom hleaves
  · intro h world
    rcases h with hnone | hnone | hroom
    · intro call hcall
      rw [no_calls_of_doesNotStart tools world inputs hnone backend] at hcall
      cases hcall
    · rw [promptsFit_iff world hmessages]
      exact fun before call next after hcalls => absurd hcalls (no_second_call world hnone)
    · rw [promptsFit_iff world hmessages]
      intro before call next after hcalls
      have hanswering := (@runFastTriageRoute_answering E tools inputs world backend).1
      rw [hcalls] at hanswering
      obtain ⟨categories, hrejected, hmodel⟩ := hanswering.of_split.1
      rw [firstCategory, hrejected]
      exact hroom call.reply categories hrejected hmodel

end

/-- A run keeps every prompt within the budget exactly when the first prompt leaves room for each
instruction that is sent after a rejection; every run does so exactly when there is no second
attempt, or room for the instruction on whatever a reply can be rejected for. -/
theorem prompts_fit_iff {E : Type} (sha256Hex : List UInt8 → String) (isAlphanumeric : Char → Bool)
    (fromStr : String → Option ModelInvestigationAnswerV1) (nonce : Injection.BoundaryNonce)
    (inputs : FastTriageInputs) (backend : Bool) :
    (∀ world : World E,
      PromptsFit (hostTools sha256Hex isAlphanumeric fromStr nonce) world inputs backend ↔
        RoomAfterRejections (hostTools sha256Hex isAlphanumeric fromStr nonce) world inputs
          backend) ∧
    ((∀ world : World E,
        PromptsFit (hostTools sha256Hex isAlphanumeric fromStr nonce) world inputs backend) ↔
      DoesNotStart (hostTools sha256Hex isAlphanumeric fromStr nonce) inputs ∨
      ¬ Retries inputs backend ∨
      ∀ (reply : Reply E) (categories : List FastTriageFailureCategory),
        (judgeReply (hostTools sha256Hex isAlphanumeric fromStr nonce) inputs.packet reply).2 =
          .rejected categories →
        (∀ c ∈ categories, c.isHostSide = false) →
        LeavesRoom (hostTools sha256Hex isAlphanumeric fromStr nonce) inputs categories.head?) :=
  ⟨fun world => promptsFit_iff world rfl backend, all_promptsFit_iff rfl backend⟩

/-! ## A packet that just fits -/

def tightTools : FastTriageTools :=
  hostTools spell Char.isAlphanum readCause
    ⟨replicate 32 'a', fun c hc => by rw [eq_of_mem_replicate hc]; decide, rfl⟩

def tightPacket : FastTriagePacketV1 :=
  { ledger := ⟨causeBinding, [causeRow]⟩,
    rows := [⟨"e1", "c1", .cause, .candidate, none, .focus⟩], independentCandidateId := none,
    timelineComplete := true, clock := .orderOnly, packetId := "packet-1" }

/-- The size of the first prompt with a question. -/
def tightSize (question : String) : Nat :=
  estimateContextChars (fastTriageMessages question tightPacket
    (tightTools.evidenceBlock tightPacket) none)

/-- A question and a budget that the first prompt just fits into. -/
def tightInputs (question : String) : FastTriageInputs :=
  { userText := question, packet := tightPacket, expectedPacketId := none, enabled := true,
    records := [⟨"p", "m", .hostGroundedSynthesisCompletePacket, .qualified,
      tightTools.contractFingerprint⟩],
    profileId := some "p", modelId := some "m", fallback := none,
    budget := ⟨0, tightSize question + 12000, 1⟩, alreadyCancelled := false }

def silentReply : Reply Unit := .completed ⟨"", [], "stop"⟩ []

variable {question : String}

theorem tight_packingBudget (h : 108000 ≤ question.utf8ByteSize) :
    packingBudget (tightInputs question) = tightSize question := by
  have hlong : 108000 ≤ tightSize question := by
    unfold tightSize estimateContextChars fastTriageMessages
    simp only [map_cons, map_nil, sum_cons, sum_nil]
    omega
  unfold packingBudget tightInputs synthesisPackingBudget SYNTHESIS_CONTEXT_HEADROOM_CHARS
  dsimp only
  omega

theorem tight_selected (question : String) :
    selectFastTriageRoute (tightInputs question).records
        (routeRequest tightTools (tightInputs question)) =
      .selected ⟨⟨"p", "m"⟩, .hostGroundedSynthesisCompletePacket,
        tightTools.contractFingerprint⟩ := by
  have hblank : isBlank "p" = false ∧ isBlank "m" = false := by decide
  simp [selectFastTriageRoute, routeRequest, tightInputs, hblank]

theorem silentReply_rejected :
    (judgeReply tightTools tightPacket silentReply).2 = .rejected [.emptyVisibleAnswer] := by
  rfl

theorem tight_starts (h : 108000 ≤ question.utf8ByteSize) :
    ¬ DoesNotStart tightTools (tightInputs question) := by
  rintro (⟨rejection, hnone⟩ | ⟨expected, hnone, -⟩ | hcancelled | hover)
  · rw [tight_selected] at hnone
    cases hnone
  · cases hnone
  · cases hcancelled
  · exact absurd hover (Nat.not_lt_of_le (tight_packingBudget h).ge)

theorem correctionBlock_pos (category : FastTriageFailureCategory) :
    0 < (correctionBlock (some category)).utf8ByteSize := by
  have hlead : ("HOST VALIDATION CATEGORY: ").utf8ByteSize = 26 := rfl
  unfold correctionBlock
  simp only [String.utf8ByteSize_append, hlead]
  omega

/-- The first prompt fills the budget, so the correction after an empty answer overruns it. -/
theorem tight_overruns (h : 108000 ≤ question.utf8ByteSize) :
    ¬ PromptsFit tightTools (fun _ _ _ => silentReply) (tightInputs question) false := by
  intro hfit
  have hretries : Retries (tightInputs question) false :=
    Or.inl (show 0 < (FastTriageBudget.effectiveCorrections ⟨0, _, 1⟩).toNat from Nat.one_pos)
  have hrejected : (judgeReply tightTools (tightInputs question).packet silentReply).2 =
      .rejected [.emptyVisibleAnswer] := silentReply_rejected
  obtain ⟨first, next, rest, hcalls, hreply⟩ :=
    rejected_run hrejected (by decide) (tight_starts h) hretries
  have hroom := (promptsFit_iff _ rfl false).mp hfit [] first next rest hcalls
  rw [firstCategory, hreply, hrejected] at hroom
  replace hroom : tightSize question +
      (correctionBlock (some .emptyVisibleAnswer)).utf8ByteSize ≤
        packingBudget (tightInputs question) := hroom
  rw [tight_packingBudget h] at hroom
  have hpos := correctionBlock_pos .emptyVisibleAnswer
  omega

theorem size_replicate (n : Nat) : n ≤ (String.ofList (replicate n 'a')).utf8ByteSize := by
  induction n with
  | zero => exact Nat.zero_le _
  | succ n ih =>
    have hone : (String.ofList ['a']).utf8ByteSize = 1 := rfl
    rw [replicate_succ', String.ofList_append, String.utf8ByteSize_append, hone]
    omega

theorem correction_overruns_budget :
    ¬ PromptsFit tightTools (fun _ _ _ => silentReply)
      (tightInputs (String.ofList (replicate 108000 'a'))) false :=
  tight_overruns (size_replicate 108000)

end ContextDesk
