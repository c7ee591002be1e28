import ContextDesk.FastTriage.Route

/-!
# What a run of the fast-triage route does

Every attempt is one call and one record (`runAttempt_spec`). The attempts on the primary backend
go on only after rejections that a model can repair (`primaryAttempts_spec`), and the fallback is
asked once, after all of them (`escalate_spec`). `RouteKept` is what holds of a whole run for every
behaviour of the backends.
-/

namespace ContextDesk

open Lib List

section

variable {E : Type} (tools : FastTriageTools) (world : World E) (inputs : FastTriageInputs)

/-- One record and one counted attempt for each call. -/
def Tallied (s : RouteState E) : Prop :=
  s.run.attempts.length = s.calls.length ∧
    s.run.providerAttempts = min s.calls.length (2 ^ 32 - 1)

/-- The reply was read and rejected, and not for anything on the side of the host. -/
def ProviderCall.RejectedByModel (packet : FastTriagePacketV1)
    (call : ProviderCall E) : Prop :=
  ∃ categories, (judgeReply tools packet call.reply).2 = .rejected categories ∧
    ∀ c ∈ categories, c.isHostSide = false

theorem tallied_start : Tallied ({} : RouteState E) := ⟨rfl, rfl⟩

variable {s : RouteState E}

theorem runAttempt_spec (packet : FastTriagePacketV1) (backend : Backend)
    (messages : List ChatMessage) (stage : FastTriageStage) (role : FastTriageRoleBinding)
    (hs : Tallied s) :
    ∃ call : ProviderCall E, call.backend = backend ∧
      (runAttempt tools packet world backend messages stage role s).1 =
        (judgeReply tools packet call.reply).2 ∧
      (runAttempt tools packet world backend messages stage role s).2.calls = s.calls ++ [call] ∧
      Tallied (runAttempt tools packet world backend messages stage role s).2 := by
  obtain ⟨hlength, hcount⟩ := hs
  refine ⟨⟨backend, messages, world s.calls backend messages⟩, rfl, rfl, rfl, ?_, ?_⟩
  · show (s.run.attempts ++ [_]).length = (s.calls ++ [_]).length
    rw [length_append, length_append, hlength, length_singleton,
      length_singleton]
  · show oneMore s.run.providerAttempts = min (s.calls ++ [_]).length (2 ^ 32 - 1)
    rw [oneMore, hcount, length_append, length_singleton]
    omega

theorem validated_of_judgeReply {tools : FastTriageTools} {packet : FastTriagePacketV1} {reply : Reply E}
    {envelope : AnswerEnvelopeV1}
    (h : (judgeReply tools packet reply).2 = .accepted envelope) :
    ∃ object, validateFastAnswer tools.fromStr object packet = .accepted envelope := by
  cases reply with
  | completed completion streamed =>
    simp only [judgeReply, judgeTerminal] at h
    split at h
    · cases h
    · cases h
    · split at h
      · rename_i hvalid
        split at h
        · cases h
        · cases h
          exact ⟨_, hvalid⟩
      · cases h
  | failed error cancelFlag =>
    simp only [judgeReply] at h
    split at h <;> cases h
  | cancelled => cases h
  | deadline => cases h

theorem primaryAttempts_spec (evidence : String) (role : FastTriageRoleBinding)
    (attempts : List Nat) (correction : Option FastTriageFailureCategory)
    (categories : List FastTriageFailureCategory) (hs : Tallied s) :
    ∃ new : List (ProviderCall E),
      (primaryAttempts tools world inputs evidence role attempts correction categories s).2.calls =
        s.calls ++ new ∧
      new.length ≤ attempts.length ∧ (∀ call ∈ new, call.backend = .primary) ∧
      Tallied (primaryAttempts tools world inputs evidence role attempts correction categories
        s).2 ∧
      (∀ last, (primaryAttempts tools world inputs evidence role attempts correction categories
          s).1 = .exhausted last →
        new.length = attempts.length ∧
          ∀ call ∈ new, call.RejectedByModel tools inputs.packet) ∧
      ∀ envelope label, (primaryAttempts tools world inputs evidence role attempts correction
          categories s).1 = .verified envelope label →
        ∃ call ∈ new, (judgeReply tools inputs.packet call.reply).2 = .accepted envelope := by
  induction attempts generalizing correction categories s with
  | nil =>
    refine ⟨[], (append_nil _).symm, Nat.le_refl _, by simp, hs, fun _ _ => ⟨rfl, by simp⟩, ?_⟩
    intro envelope label h
    cases h
  | cons attempt attempts ih =>
    rw [primaryAttempts]
    generalize hstart : (if attempt = 0 then s
      else { s with run := { s.run with correctionUsed := true,
                                        correctionCategory := correction } }) = t
    have ht : Tallied t ∧ t.calls = s.calls := by
      rw [← hstart]
      split
      · exact ⟨hs, rfl⟩
      · exact ⟨hs, rfl⟩
    obtain ⟨call, hbackend, hresult, hcalls, htallied⟩ :=
      runAttempt_spec tools world inputs.packet .primary
        (tools.messages inputs.userText inputs.packet evidence
          (if attempt = 0 then none else correction))
        (if attempt = 0 then .primary else .correction) role ht.1
    rw [ht.2] at hcalls
    generalize runAttempt tools inputs.packet world .primary _ _ role t = r at *
    obtain ⟨result, s'⟩ := r
    -- an attempt that ends the loop leaves its one call behind
    have hone : ∀ last : PrimaryEnd E, (∀ cats, last ≠ .exhausted cats) →
        (∀ envelope label, last = .verified envelope label → result = .accepted envelope) →
        ∃ new : List (ProviderCall E), s'.calls = s.calls ++ new ∧
          new.length ≤ (attempt :: attempts).length ∧ (∀ call ∈ new, call.backend = .primary) ∧
          Tallied s' ∧
          (∀ cats, last = .exhausted cats → new.length = (attempt :: attempts).length ∧
            ∀ call ∈ new, call.RejectedByModel tools inputs.packet) ∧
          ∀ envelope label, last = .verified envelope label →
            ∃ call ∈ new, (judgeReply tools inputs.packet call.reply).2 = .accepted envelope := by
      intro last hlast haccepted
      refine ⟨[call], hcalls, by simp, by simpa using hbackend, htallied,
        fun cats h => absurd h (hlast cats), fun envelope label h => ?_⟩
      exact ⟨call, mem_singleton_self call, hresult.symm.trans (haccepted envelope label h)⟩
    cases result with
    | accepted envelope =>
      refine hone _ (fun _ h => by cases h) fun _ _ h => ?_
      cases h
      rfl
    | cancelled => exact hone _ (fun _ h => by cases h) fun _ _ h => by cases h
    | deadline => exact hone _ (fun _ h => by cases h) fun _ _ h => by cases h
    | providerFailed error => exact hone _ (fun _ h => by cases h) fun _ _ h => by cases h
    | rejected rejected =>
      dsimp only
      split
      · exact hone _ (fun _ h => by cases h) fun _ _ h => by cases h
      · rename_i hmodel
        obtain ⟨new, hnew, hlength, hprimary, hrest, hexhausted, hverified⟩ :=
          ih rejected.head? rejected htallied
        have hrejected : call.RejectedByModel tools inputs.packet := by
          refine ⟨rejected, hresult.symm, fun c hc => ?_⟩
          exact Bool.eq_false_of_not_eq_true fun hside =>
            hmodel (any_eq_true.mpr ⟨c, hc, hside⟩)
        refine ⟨call :: new, ?_, ?_, ?_, hrest, fun last h => ?_, fun envelope label h => ?_⟩
        · rw [hnew, hcalls, append_assoc, singleton_append]
        · rw [length_cons, length_cons]
          omega
        · exact forall_mem_cons.mpr ⟨hbackend, hprimary⟩
        · obtain ⟨hall, hmodels⟩ := hexhausted last h
          refine ⟨?_, forall_mem_cons.mpr ⟨hrejected, hmodels⟩⟩
          rw [length_cons, length_cons, hall]
        · obtain ⟨c, hc, haccepted⟩ := hverified envelope label h
          exact ⟨c, mem_cons_of_mem _ hc, haccepted⟩

/-- The telemetry handed out is that of the run. -/
def Reported (outcome : FastTriageRouteOutcome E) (s : RouteState E) : Prop :=
  outcome.telemetry.attempts = s.run.attempts ∧
    outcome.telemetry.providerAttempts = s.run.providerAttempts

theorem escalate_spec (evidence : String) (selected : SelectedFastRoute)
    (fallback : FastTriageFallback) (categories : List FastTriageFailureCategory) (hs : Tallied s) :
    ∃ call : ProviderCall E, call.backend = .fallback ∧
      (escalate tools world inputs evidence selected fallback categories s).2.calls =
        s.calls ++ [call] ∧
      Tallied (escalate tools world inputs evidence selected fallback categories s).2 ∧
      Reported (escalate tools world inputs evidence selected fallback categories s).1
        (escalate tools world inputs evidence selected fallback categories s).2 ∧
      ∀ envelope content telemetry,
        (escalate tools world inputs evidence selected fallback categories s).1 =
          .verified envelope content telemetry →
        (judgeReply tools inputs.packet call.reply).2 = .accepted envelope := by
  unfold escalate
  have hstart : Tallied { s with run := { s.run with escalation := ⟨.requested,
      some fallback.profileId, some fallback.modelId, some inputs.packet.packetId⟩ } } := hs
  obtain ⟨call, hbackend, hresult, hcalls, htallied⟩ :=
    runAttempt_spec tools world inputs.packet .fallback
      (tools.messages inputs.userText inputs.packet evidence categories.head?)
      .escalation ⟨fallback.profileId, fallback.modelId⟩ hstart
  refine ⟨call, hbackend, ?_⟩
  dsimp only at hresult hcalls htallied ⊢
  generalize runAttempt tools inputs.packet world .fallback _ _ _ _ = r at *
  obtain ⟨result, s'⟩ := r
  cases result with
  | accepted envelope =>
    refine ⟨hcalls, htallied, ⟨rfl, rfl⟩, fun _ _ _ h => ?_⟩
    cases h
    exact hresult.symm
  | rejected rejected => exact ⟨hcalls, htallied, ⟨rfl, rfl⟩, fun _ _ _ h => by cases h⟩
  | cancelled => exact ⟨hcalls, htallied, ⟨rfl, rfl⟩, fun _ _ _ h => by cases h⟩
  | deadline => exact ⟨hcalls, htallied, ⟨rfl, rfl⟩, fun _ _ _ h => by cases h⟩
  | providerFailed error => exact ⟨hcalls, htallied, ⟨rfl, rfl⟩, fun _ _ _ h => by cases h⟩

/-- What holds of a run, `backend` telling whether a fallback backend was handed over. -/
structure RouteKept (backend : Bool) (outcome : FastTriageRouteOutcome E) (s : RouteState E) :
    Prop where
  /-- The calls on the primary come first, at most one on the fallback is last, and that one only
  after every attempt on the primary was rejected. -/
  calls : ∃ primary escalated : List (ProviderCall E), s.calls = primary ++ escalated ∧
    (∀ call ∈ primary, call.backend = .primary) ∧
    (∀ call ∈ escalated, call.backend = .fallback) ∧
    primary.length ≤ inputs.budget.effectiveCorrections.toNat + 1 ∧ escalated.length ≤ 1 ∧
    (escalated ≠ [] →
      (∃ fallback, inputs.fallback = some fallback ∧ fallback.authorized = true) ∧
      backend = true ∧ primary.length = inputs.budget.effectiveCorrections.toNat + 1 ∧
      ∀ call ∈ primary, call.RejectedByModel tools inputs.packet)
  verified : ∀ envelope content telemetry, outcome = .verified envelope content telemetry →
    ∃ call ∈ s.calls, (judgeReply tools inputs.packet call.reply).2 = .accepted envelope
  tallied : Tallied s
  reported : Reported outcome s

theorem routeKept_of_no_calls {backend : Bool} {outcome : FastTriageRouteOutcome E}
    (hcalls : s.calls = []) (htallied : Tallied s) (hreported : Reported outcome s)
    (hverified : ∀ envelope content telemetry, outcome ≠ .verified envelope content telemetry) :
    RouteKept tools inputs backend outcome s where
  calls := ⟨[], [], hcalls, by simp, by simp, by simp, by simp, fun h => absurd rfl h⟩
  verified := fun _ _ _ h => absurd h (hverified _ _ _)
  tallied := htallied
  reported := hreported

theorem routeKept_of_primary {backend : Bool} {outcome : FastTriageRouteOutcome E}
    {new : List (ProviderCall E)} (hcalls : s.calls = new)
    (hprimary : ∀ call ∈ new, call.backend = .primary)
    (hlength : new.length ≤ inputs.budget.effectiveCorrections.toNat + 1) (htallied : Tallied s)
    (hreported : Reported outcome s)
    (hverified : ∀ envelope content telemetry, outcome = .verified envelope content telemetry →
      ∃ call ∈ new, (judgeReply tools inputs.packet call.reply).2 = .accepted envelope) :
    RouteKept tools inputs backend outcome s where
  calls := ⟨new, [], by rw [hcalls, append_nil], hprimary, by simp, hlength, by simp,
    fun h => absurd rfl h⟩
  verified := by rw [hcalls]; exact hverified
  tallied := htallied
  reported := hreported

theorem runSelected_kept (backend : Bool) (selected : SelectedFastRoute) :
    RouteKept tools inputs backend (runSelected tools world inputs backend selected).1
      (runSelected tools world inputs backend selected).2 := by
  unfold runSelected
  dsimp only
  split
  · exact routeKept_of_no_calls tools inputs rfl tallied_start ⟨rfl, rfl⟩ fun _ _ _ h => by cases h
  · split
    · exact routeKept_of_no_calls tools inputs rfl tallied_start ⟨rfl, rfl⟩ fun _ _ _ h => by cases h
    · split
      · exact routeKept_of_no_calls tools inputs rfl tallied_start ⟨rfl, rfl⟩ fun _ _ _ h => by cases h
      · obtain ⟨new, hcalls, hlength, hprimary, htallied, hexhausted, hverified⟩ :=
          primaryAttempts_spec tools world inputs (tools.evidenceBlock inputs.packet)
            selected.role (List.range (inputs.budget.effectiveCorrections.toNat + 1)) none []
            tallied_start
        rw [length_range] at hlength hexhausted
        generalize primaryAttempts tools world inputs _ selected.role _ none [] {} = r at *
        obtain ⟨last, s⟩ := r
        replace hcalls : s.calls = new := hcalls
        cases last with
        | verified envelope label =>
          refine routeKept_of_primary tools inputs hcalls hprimary hlength htallied ⟨rfl, rfl⟩ ?_
          intro envelope' content telemetry h
          cases h
          exact hverified envelope label rfl
        | hostSide categories =>
          exact routeKept_of_primary tools inputs hcalls hprimary hlength htallied ⟨rfl, rfl⟩
            fun _ _ _ h => by cases h
        | cancelled =>
          exact routeKept_of_primary tools inputs hcalls hprimary hlength htallied ⟨rfl, rfl⟩
            fun _ _ _ h => by cases h
        | deadline =>
          exact routeKept_of_primary tools inputs hcalls hprimary hlength htallied ⟨rfl, rfl⟩
            fun _ _ _ h => by cases h
        | providerFailed error =>
          exact routeKept_of_primary tools inputs hcalls hprimary hlength htallied ⟨rfl, rfl⟩
            fun _ _ _ h => by cases h
        | exhausted categories =>
          obtain ⟨hall, hmodels⟩ := hexhausted categories rfl
          dsimp only
          split
          · rename_i fallback hfallback
            split
            · rename_i hauthorized
              obtain ⟨call, hbackend, hlast, htallied', hreported, haccepted⟩ :=
                escalate_spec tools world inputs (tools.evidenceBlock inputs.packet) selected
                  fallback categories htallied
              refine ⟨⟨new, [call], by rw [hlast, hcalls], hprimary, by simpa using hbackend,
                hlength, Nat.le_refl _, fun _ => ⟨⟨fallback, hfallback, hauthorized⟩, rfl, hall,
                  hmodels⟩⟩, fun envelope content telemetry h => ?_, htallied', hreported⟩
              refine ⟨call, ?_, haccepted envelope content telemetry h⟩
              rw [hlast]
              exact mem_append_right _ (mem_singleton_self call)
            · exact routeKept_of_primary tools inputs hcalls hprimary hlength htallied ⟨rfl, rfl⟩
                fun _ _ _ h => by cases h
          · exact routeKept_of_primary tools inputs hcalls hprimary hlength htallied ⟨rfl, rfl⟩
              fun _ _ _ h => by cases h

theorem runFastTriageRoute_kept (backend : Bool) :
    RouteKept tools inputs backend (runFastTriageRoute tools world inputs backend).1
      (runFastTriageRoute tools world inputs backend).2 := by
  unfold runFastTriageRoute
  split
  · exact routeKept_of_no_calls tools inputs rfl tallied_start ⟨rfl, rfl⟩ fun _ _ _ h => by cases h
  · exact runSelected_kept tools world inputs backend _

theorem effectiveCorrections_le (budget : FastTriageBudget) :
    budget.effectiveCorrections.toNat ≤ 1 := by
  have h : budget.effectiveCorrections = if budget.maxCorrections ≤ FAST_TRIAGE_MAX_CORRECTIONS
    then budget.maxCorrections else FAST_TRIAGE_MAX_CORRECTIONS := rfl
  rw [h]
  split
  · rename_i hle
    exact UInt8.le_iff_toNat_le.mp hle
  · exact Nat.le_refl 1

/-- The route does not start: it is not selected, the packet is not the expected one, the turn is
cancelled, or the first prompt does not fit. -/
def DoesNotStart : Prop :=
  (∃ rejection, selectFastTriageRoute inputs.records (routeRequest tools inputs) =
    .notSelected rejection) ∨
  (∃ expected, inputs.expectedPacketId = some expected ∧ expected ≠ inputs.packet.packetId) ∨
  inputs.alreadyCancelled = true ∨
  synthesisPackingBudget inputs.budget.contextCharBudget < estimateContextChars
    (tools.messages inputs.userText inputs.packet (tools.evidenceBlock inputs.packet) none)

theorem no_calls_of_doesNotStart (h : DoesNotStart tools inputs) (backend : Bool) :
    (runFastTriageRoute tools world inputs backend).2.calls = [] := by
  unfold runFastTriageRoute
  split
  · rfl
  · rename_i selected hselected
    unfold runSelected
    dsimp only
    split
    · rfl
    · rename_i hexpected
      split
      · rfl
      · rename_i hcancelled
        split
        · rfl
        · rename_i hfits
          rcases h with ⟨rejection, h⟩ | ⟨expected, h, hne⟩ | h | h
          · rw [hselected] at h
            cases h
          · rw [h] at hexpected
            exact absurd (decide_eq_true hne) hexpected
          · exact absurd h hcancelled
          · exact absurd h hfits

/-- For every behaviour of the backends: at most two calls on the primary and then at most one on
the fallback, none when the route does not start, a verified answer only from the validator, and
telemetry with one attempt for each call. -/
theorem runFastTriageRoute_bounded (backend : Bool) :
    (runFastTriageRoute tools world inputs backend).2.calls.length ≤ 3 ∧
    ((runFastTriageRoute tools world inputs backend).2.calls.countP
      (fun call => call.backend = .primary) ≤ 2 ∧
      (runFastTriageRoute tools world inputs backend).2.calls.countP
        (fun call => call.backend = .fallback) ≤ 1) ∧
    (∀ call ∈ (runFastTriageRoute tools world inputs backend).2.calls,
      call.backend = .fallback →
        (∃ fallback, inputs.fallback = some fallback ∧ fallback.authorized = true) ∧
        backend = true ∧ ∃ primary,
          (runFastTriageRoute tools world inputs backend).2.calls = primary ++ [call] ∧
          primary.length = inputs.budget.effectiveCorrections.toNat + 1 ∧
          ∀ c ∈ primary, c.backend = .primary ∧ c.RejectedByModel tools inputs.packet) ∧
    (DoesNotStart tools inputs →
      (runFastTriageRoute tools world inputs backend).2.calls = []) ∧
    (∀ envelope content telemetry, (runFastTriageRoute tools world inputs backend).1 =
        .verified envelope content telemetry →
      ∃ object, validateFastAnswer tools.fromStr object inputs.packet = .accepted envelope) ∧
    (runFastTriageRoute tools world inputs backend).1.telemetry.attempts.length =
      (runFastTriageRoute tools world inputs backend).2.calls.length ∧
    (runFastTriageRoute tools world inputs backend).1.telemetry.providerAttempts =
      (runFastTriageRoute tools world inputs backend).2.calls.length := by
  have hkept := runFastTriageRoute_kept tools world inputs backend
  have hnone := fun h => no_calls_of_doesNotStart tools world inputs h backend
  generalize runFastTriageRoute tools world inputs backend = r at *
  obtain ⟨outcome, s⟩ := r
  obtain ⟨⟨primary, escalated, hcalls, hprimary, hescalated, hlength, hone, honly⟩, hverified,
    ⟨hattempts, hcount⟩, hreported⟩ := hkept
  have hmax := effectiveCorrections_le inputs.budget
  have hsum : s.calls.length = primary.length + escalated.length := by
    rw [hcalls, length_append]
  have hnotPrimary : escalated.countP (fun call => call.backend = .primary) = 0 :=
    countP_eq_zero.mpr fun call hc => by simp [hescalated call hc]
  have hnotFallback : primary.countP (fun call => call.backend = .fallback) = 0 :=
    countP_eq_zero.mpr fun call hc => by simp [hprimary call hc]
  dsimp only at hsum hcount ⊢
  refine ⟨by omega, ⟨?_, ?_⟩, fun call hcall hbackend => ?_, hnone,
    fun envelope content telemetry h => ?_, ?_, ?_⟩
  · rw [hcalls, countP_append, hnotPrimary]
    have := countP_le_length (p := fun call : ProviderCall E => call.backend = .primary)
      (l := primary)
    omega
  · rw [hcalls, countP_append, hnotFallback]
    have := countP_le_length (p := fun call : ProviderCall E => call.backend = .fallback)
      (l := escalated)
    omega
  · dsimp only at hcalls hcall
    rw [hcalls] at hcall
    rcases mem_append.mp hcall with hcall | hcall
    · rw [hprimary call hcall] at hbackend
      cases hbackend
    · obtain ⟨hfallback, hgiven, hall, hmodels⟩ := honly (ne_nil_of_mem hcall)
      refine ⟨hfallback, hgiven, primary, ?_, hall, fun c hc => ⟨hprimary c hc, hmodels c hc⟩⟩
      obtain ⟨c, rfl⟩ : ∃ c, escalated = [c] := by
        refine length_eq_one_iff.mp ?_
        have := length_pos_of_mem hcall
        omega
      rw [hcalls, mem_singleton.mp hcall]
  · obtain ⟨call, -, haccepted⟩ := hverified envelope content telemetry h
    exact validated_of_judgeReply haccepted
  · rw [hreported.1, hattempts]
  · rw [hreported.2, hcount]
    omega

end

end ContextDesk
