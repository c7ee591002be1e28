import ContextDesk.LogAnalysis.DrainRuns
import Mathlib.Data.List.MinMax

/-!
# The same message again

With the similarity as an exact ratio a scan answers the first template whose similarity is
greatest among those that meet the threshold (`scanBestWith_exact`). A template that has taken a
message in, or was made from it, is alike to it at every position, so the message finds it again
and changes no pattern. A message without a token is alike to nothing: each one is given a template
of its own, up to the caps.
-/

open List

namespace ContextDesk.LogAnalysis

open Lib.Text

namespace Drain

/-! ## The exact similarity -/

@[simp] theorem exact_atLeast (a b : ℚ) : Arithmetic.exact.atLeast a b = decide (b ≤ a) := rfl

@[simp] theorem exact_above (a b : ℚ) : Arithmetic.exact.above a b = decide (b < a) := rfl

theorem scoreWith_exact (n need i same : Nat) (rest : List (Token × Token)) (hsame : same ≤ i)
    (hn : i + rest.length = n) :
    ∃ k ≤ n, scoreWith .exact n need i same rest = (k : ℚ) / n := by
  induction rest generalizing i same with
  | nil => exact ⟨same, by simp at hn; omega, rfl⟩
  | cons pm rest ih =>
    rw [length_cons] at hn
    unfold scoreWith
    split
    · exact ⟨same, by omega, rfl⟩
    split
    · exact ih (i + 1) (same + 1) (by omega) (by omega)
    · exact ih (i + 1) same (by omega) (by omega)

theorem scoreWith_full {n need i : Nat} {rest : List (Token × Token)} (hneed : need ≤ n)
    (hn : i + rest.length = n) (h : ∀ pm ∈ rest, alike pm.1 pm.2 = true) :
    scoreWith .exact n need i i rest = (n : ℚ) / n := by
  induction rest generalizing i with
  | nil =>
    obtain rfl : i = n := by simpa using hn
    rfl
  | cons pm rest ih =>
    rw [length_cons] at hn
    unfold scoreWith
    rw [if_neg (by omega), if_pos (h pm mem_cons_self)]
    exact ih (by omega) fun q hq => h q (mem_cons_of_mem pm hq)

theorem similarity_le_one (pat msg : List Token) (threshold : ℚ) :
    similarityWith .exact pat msg threshold ≤ 1 := by
  unfold similarityWith
  split
  · exact zero_le_one
  · rename_i hlen
    simp only [Bool.or_eq_true, decide_eq_true_eq, not_or, Bool.not_eq_true, not_not] at hlen
    obtain ⟨k, hk, heq⟩ := scoreWith_exact pat.length (Arithmetic.exact.need threshold pat.length)
      0 0 (pat.zip msg) (Nat.le_refl 0) (by rw [length_zip, ← hlen.1]; omega)
    rw [heq]
    exact div_le_one_of_le₀ (Nat.cast_le.mpr hk) (Nat.cast_nonneg _)

theorem alike_of_covers {pat msg : List Token} (h : Covers pat msg) :
    ∀ pm ∈ pat.zip msg, alike pm.1 pm.2 = true := by
  induction h with
  | nil => simp
  | cons hpm _ ih =>
    rw [zip_cons_cons, forall_mem_cons]
    refine ⟨?_, ih⟩
    rcases hpm with rfl | rfl <;> simp [alike]

theorem similarity_of_covers {pat msg : List Token} (h : Covers pat msg) (hne : msg ≠ [])
    {threshold : ℚ} (hhigh : threshold ≤ 1) : similarityWith .exact pat msg threshold = 1 := by
  have hlen := h.length
  have hpos : pat.length ≠ 0 := by rw [hlen]; simpa using hne
  have hneed : Arithmetic.exact.need threshold pat.length ≤ pat.length := by
    show ⌈threshold * pat.length - 1 / 2 ^ 23⌉.toNat ≤ pat.length
    rw [Int.toNat_le, Int.ceil_le]
    have hn : (0 : ℚ) ≤ pat.length := Nat.cast_nonneg _
    have := mul_le_of_le_one_left hn hhigh
    push_cast
    linarith
  unfold similarityWith
  rw [if_neg (by simp [hlen, length_eq_zero_iff.not.mp hpos])]
  rw [scoreWith_full hneed (by rw [length_zip, ← hlen]; omega) (alike_of_covers h)]
  exact div_self (Nat.cast_ne_zero.mpr hpos)

end Drain

namespace DrainMiner

open Drain

/-! ## What a scan answers -/

variable {threshold : ℚ}

/-- The similarity of a template to a message, and zero where the scan passes it over. -/
def similarityOf (threshold : ℚ) (m : DrainMiner) (tokens : List Token) (id : Nat) : ℚ :=
  match m.patternTokens[id]? with
  | none => 0
  | some p => if p.length ≠ tokens.length then 0 else similarityWith .exact p tokens threshold

def meeting (threshold : ℚ) (m : DrainMiner) (tokens : List Token) : List Nat :=
  (m.bucket tokens.length).filter fun id => threshold ≤ m.similarityOf threshold tokens id

theorem similarityOf_le_one (m : DrainMiner) (tokens : List Token) (id : Nat) :
    m.similarityOf threshold tokens id ≤ 1 := by
  unfold similarityOf
  split
  · exact zero_le_one
  split
  · exact zero_le_one
  · exact similarity_le_one _ _ _

variable {cancel : Option (Nat → Bool)}

/-- From a best candidate on, the scan takes the first of the greatest. -/
theorem scanWith_exact (hlow : 0 < threshold) {m : DrainMiner} {tokens : List Token} {scanI : Nat}
    {best : Option (Nat × ℚ)} {ids : List Nat}
    (hbest : ∀ b ∈ best, b.2 = m.similarityOf threshold tokens b.1) {r : Option (Nat × ℚ)}
    (h : m.scanWith .exact threshold tokens cancel scanI best ids = .ok r) :
    r.map Prod.fst =
      (ids.filter fun id => threshold ≤ m.similarityOf threshold tokens id).foldl
        (List.argAux fun b c => m.similarityOf threshold tokens c <
          m.similarityOf threshold tokens b) (best.map Prod.fst) := by
  induction ids generalizing scanI best with
  | nil =>
    cases h
    rfl
  | cons id ids ih =>
    unfold scanWith at h
    split at h
    · cases h
    have hskip : m.similarityOf threshold tokens id = 0 →
        ((id :: ids).filter fun id => threshold ≤ m.similarityOf threshold tokens id) =
          ids.filter fun id => threshold ≤ m.similarityOf threshold tokens id := by
      intro hzero
      rw [filter_cons_of_neg (by simp [hzero, hlow])]
    split at h
    · rename_i hnone
      rw [hskip (by unfold similarityOf; rw [hnone]), ih hbest h]
    rename_i p hp
    split at h
    · rename_i hlen
      rw [hskip (by unfold similarityOf; rw [hp]; exact if_pos hlen), ih hbest h]
    rename_i hlen
    have hsim : similarityWith .exact p tokens threshold = m.similarityOf threshold tokens id := by
      unfold similarityOf
      rw [hp]
      exact (if_neg hlen).symm
    simp only [hsim, exact_atLeast, exact_above] at h
    by_cases hmeets : threshold ≤ m.similarityOf threshold tokens id
    · rw [filter_cons_of_pos (by simpa using hmeets), foldl_cons]
      cases best with
      | none =>
        simp only [hmeets, decide_true, Option.map_none, Option.getD_none, Bool.and_self,
          if_true] at h
        exact ih (by simp) h
      | some b =>
        have hb := hbest b rfl
        simp only [hmeets, decide_true, Option.map_some, Option.getD_some, Bool.true_and,
          decide_eq_true_eq, hb] at h
        by_cases habove : m.similarityOf threshold tokens b.1 < m.similarityOf threshold tokens id
        · rw [if_pos habove] at h
          rw [ih (by simp) h]
          simp [List.argAux, habove]
        · rw [if_neg habove] at h
          rw [ih hbest h]
          simp [List.argAux, habove]
    · rw [filter_cons_of_neg (by simpa using hmeets)]
      simp only [hmeets, decide_false, Bool.false_and, Bool.false_eq_true, if_false] at h
      exact ih hbest h

theorem scanBestWith_exact (hlow : 0 < threshold) {m : DrainMiner} {tokens : List Token}
    {r : Option Nat} (h : m.scanBestWith .exact threshold tokens cancel = .ok r) :
    r = (m.meeting threshold tokens).argmax (m.similarityOf threshold tokens) := by
  unfold scanBestWith at h
  unfold meeting bucket
  split at h
  · rename_i hnone
    cases h
    rw [hnone]
    rfl
  · rename_i ids hids
    rw [hids]
    cases hs : m.scanWith .exact threshold tokens cancel 0 none ids with
    | error e =>
      rw [hs] at h
      cases h
    | ok best =>
      rw [hs] at h
      cases h
      exact scanWith_exact hlow (by simp) hs

/-- The flag of a call is never read as raised. -/
def Call.Uncancelled (c : Call) : Prop := ∀ scanI, (c.cancel.map (· scanI)).getD false = false

variable {c : Call}

theorem scanBestWith_uncancelled {S : Type} (A : Arithmetic S) (threshold : S) (m : DrainMiner)
    (hc : c.Uncancelled) (tokens : List Token) :
    ∃ r, m.scanBestWith A threshold tokens c.cancel = .ok r := by
  have hscan : ∀ scanI best ids,
      ∃ r, m.scanWith A threshold tokens c.cancel scanI best ids = .ok r := by
    intro scanI best ids
    induction ids generalizing scanI best with
    | nil => exact ⟨best, rfl⟩
    | cons id ids ih =>
      unfold scanWith
      rw [if_neg (by simp [hc scanI])]
      split
      · exact ih _ _
      split
      · exact ih _ _
      simp only
      split
      · exact ih _ _
      · exact ih _ _
  unfold scanBestWith
  split
  · exact ⟨none, rfl⟩
  · obtain ⟨r, hr⟩ := hscan 0 none _
    rw [hr]
    exact ⟨_, rfl⟩

/-! ## A message that is settled -/

/-- The message finds template `t`, whose pattern covers it. -/
structure Settled (threshold : ℚ) (m : DrainMiner) (tokens : List Token) (t : Nat) : Prop where
  found : (m.meeting threshold tokens).argmax (m.similarityOf threshold tokens) = some t
  covers : ∃ q, m.patternTokens[t]? = some q ∧ Covers q tokens

/-- No template has been made, and no pattern changed. -/
structure SameTemplates (m m' : DrainMiner) : Prop where
  patternTokens : m'.patternTokens = m.patternTokens
  byLen : m'.byLen = m.byLen
  nextId : m'.nextId = m.nextId
  size : m'.templates.size = m.templates.size
  pattern : ∀ id : Nat, m'.templates[id]?.map TemplateInfo.pattern =
    m.templates[id]?.map TemplateInfo.pattern

theorem SameTemplates.refl (m : DrainMiner) : SameTemplates m m := ⟨rfl, rfl, rfl, rfl, fun _ => rfl⟩

theorem SameTemplates.trans {a b c : DrainMiner} (h : SameTemplates a b) (h' : SameTemplates b c) :
    SameTemplates a c :=
  ⟨h'.patternTokens.trans h.patternTokens, h'.byLen.trans h.byLen, h'.nextId.trans h.nextId,
    h'.size.trans h.size, fun id => (h'.pattern id).trans (h.pattern id)⟩

theorem sameTemplates_absorb (m : DrainMiner) (t : Nat) (ts : Int) (sev : Nat) :
    SameTemplates m (m.absorb t none ts sev) := by
  cases ht : m.templates[t]? with
  | none =>
    have hsame : (m.absorb t none ts sev).templates = m.templates := by
      unfold absorb
      simp only [ht]
    exact ⟨rfl, rfl, rfl, by rw [hsame], fun id => by rw [hsame]⟩
  | some info =>
    refine ⟨rfl, rfl, rfl, absorb_size ht none ts sev, fun id => ?_⟩
    rw [absorb_templates ht]
    split
    · rename_i hid
      rw [hid, ht]
      rfl
    · rfl

variable {t : Nat}

theorem Settled.of_same {m m' : DrainMiner} {tokens : List Token}
    (h : Settled threshold m tokens t) (hsame : SameTemplates m m') :
    Settled threshold m' tokens t := by
  have hsim : m'.similarityOf threshold tokens = m.similarityOf threshold tokens := by
    funext id
    unfold similarityOf
    rw [hsame.patternTokens]
  have hmeet : m'.meeting threshold tokens = m.meeting threshold tokens := by
    unfold meeting bucket
    rw [hsame.byLen, hsim]
  refine ⟨by rw [hmeet, hsim]; exact h.found, ?_⟩
  rw [hsame.patternTokens]
  exact h.covers

theorem Settled.call (hlow : 0 < threshold) {m : DrainMiner}
    (h : Settled threshold m (tokenizeBorrowed c.message) t) (hc : c.Uncancelled) :
    (∃ params, (m.callWith .exact threshold c).2 = .ok (t, params)) ∧
      SameTemplates m (m.callWith .exact threshold c).1 := by
  obtain ⟨r, hr⟩ := scanBestWith_uncancelled .exact threshold m hc (tokenizeBorrowed c.message)
  obtain rfl : r = some t := (scanBestWith_exact hlow hr).trans h.found
  obtain ⟨q, hq, hcov⟩ := h.covers
  obtain ⟨merged, heq, -, -, hnone⟩ := afterScan_some (c := c) hq hcov.length
  rw [hnone hcov] at heq
  unfold callWith
  rw [hr, heq]
  exact ⟨⟨_, rfl⟩, sameTemplates_absorb m t _ _⟩

/-! ## The first call settles the message -/

section

variable {m : DrainMiner} {tokens : List Token} (hhigh : threshold ≤ 1) (hne : tokens ≠ [])

include hhigh hne

theorem similarityOf_covered {m' : DrainMiner} {q : List Token} (hcov : Covers q tokens)
    (hpatterns : ∀ id : Nat, m'.patternTokens[id]? = if id = t then some q else m.patternTokens[id]?)
    (id : Nat) : m'.similarityOf threshold tokens id =
      if id = t then 1 else m.similarityOf threshold tokens id := by
  unfold similarityOf
  rw [hpatterns]
  by_cases hid : id = t
  · simp only [if_pos hid]
    rw [if_neg (by simp [hcov.length]), similarity_of_covers hcov hne hhigh]
  · simp only [if_neg hid]

theorem settled_absorb {p : List Token} {merged : Option (List Token)}
    (hfound : (m.meeting threshold tokens).argmax (m.similarityOf threshold tokens) = some t)
    (hp : m.patternTokens[t]? = some p) (hcov : Covers (merged.getD p) tokens) (ts : Int)
    (sev : Nat) : Settled threshold (m.absorb t merged ts sev) tokens t := by
  have hpatterns := absorb_patternTokens hp merged ts sev
  have hsim := similarityOf_covered hhigh hne hcov hpatterns
  obtain ⟨hmem, -, hfirst⟩ := argmax_eq_some_iff.mp hfound
  have hmeet : (m.absorb t merged ts sev).meeting threshold tokens = m.meeting threshold tokens := by
    unfold meeting
    rw [absorb_bucket]
    refine filter_congr fun id _ => ?_
    rw [hsim]
    split
    · rename_i hid
      have ht := (mem_filter.mp hmem).2
      rw [hid, ht]
      exact decide_eq_true hhigh
    · rfl
  refine ⟨?_, merged.getD p, by rw [hpatterns, if_pos rfl], hcov⟩
  rw [hmeet, argmax_eq_some_iff]
  refine ⟨hmem, fun a _ => ?_, fun a ha hle => ?_⟩
  · rw [hsim t, if_pos rfl]
    exact similarityOf_le_one _ _ _
  · rw [hsim t, if_pos rfl, hsim a] at hle
    split at hle
    · rename_i hat
      rw [hat]
    · exact hfirst a ha (Rat.le_trans (similarityOf_le_one _ _ _) hle)

theorem settled_create
    (hnone : (m.meeting threshold tokens).argmax (m.similarityOf threshold tokens) = none)
    (message : List Char) (ts : Int) (sev : Nat) :
    Settled threshold (m.create message tokens ts sev) tokens m.nextId := by
  have hpatterns := create_patternTokens m message tokens ts sev
  have hsim := similarityOf_covered hhigh hne (.refl tokens) hpatterns
  have hempty := argmax_eq_none.mp hnone
  have honly : ∀ a ∈ (m.create message tokens ts sev).meeting threshold tokens, a = m.nextId := by
    intro a ha
    unfold meeting at ha
    rw [create_bucket, if_pos rfl, mem_filter, mem_append, mem_singleton] at ha
    obtain ⟨hbucket, hmeets⟩ := ha
    by_cases heq : a = m.nextId
    · exact heq
    · rw [hsim, if_neg heq] at hmeets
      have hold : a ∈ m.meeting threshold tokens :=
        mem_filter.mpr ⟨hbucket.resolve_right heq, hmeets⟩
      rw [hempty] at hold
      cases hold
  refine ⟨?_, tokens, by rw [hpatterns, if_pos rfl], .refl tokens⟩
  rw [argmax_eq_some_iff]
  refine ⟨?_, fun a ha => by rw [honly a ha], fun a ha _ => by rw [honly a ha]⟩
  unfold meeting
  rw [create_bucket, if_pos rfl]
  refine mem_filter.mpr ⟨by simp, ?_⟩
  rw [hsim, if_pos rfl]
  exact decide_eq_true hhigh

end

/-! ## Repeated messages -/

/-- A sequence of calls: the miner, and what each call answered. -/
def callsWith {S : Type} (A : Arithmetic S) (threshold : S) (m : DrainMiner) :
    List Call → DrainMiner × List (Except DrainFault (Nat × List Token))
  | [] => (m, [])
  | c :: calls =>
    let (m, answer) := m.callWith A threshold c
    let (m, answers) := callsWith A threshold m calls
    (m, answer :: answers)

/-- Each of the calls finds template `t`, and no pattern changes. -/
def AllFind (threshold : ℚ) (m : DrainMiner) (calls : List Call) (t : Nat) : Prop :=
  (∀ answer ∈ (m.callsWith .exact threshold calls).2, ∃ params, answer = .ok (t, params)) ∧
    SameTemplates m (m.callsWith .exact threshold calls).1

theorem Settled.calls (hlow : 0 < threshold) {m : DrainMiner} {tokens : List Token} {t : Nat}
    (h : Settled threshold m tokens t) {calls : List Call}
    (hcalls : ∀ c ∈ calls, tokenizeBorrowed c.message = tokens ∧ c.Uncancelled) :
    AllFind threshold m calls t := by
  induction calls generalizing m with
  | nil => exact ⟨by simp [callsWith], .refl m⟩
  | cons c calls ih =>
    obtain ⟨rfl, hc⟩ := hcalls c mem_cons_self
    obtain ⟨hanswer, hsame⟩ := h.call hlow hc
    obtain ⟨hrest, hend⟩ := ih (h.of_same hsame) fun d hd => hcalls d (mem_cons_of_mem c hd)
    refine ⟨?_, hsame.trans hend⟩
    intro answer ha
    rcases mem_cons.mp ha with rfl | ha
    · exact hanswer
    · exact hrest answer ha

variable {params : List Token}

theorem afterScan_none {m : DrainMiner} (h : (m.afterScan c (.ok none)).2 = .ok (t, params)) :
    t = m.nextId ∧ m.afterScan c (.ok none) =
      (m.create c.message (tokenizeBorrowed c.message) c.ts (levelSeverity c.level),
        .ok (m.nextId, [])) := by
  unfold afterScan at h ⊢
  simp only at h ⊢
  split at h
  · cases h
  rename_i hsize
  split at h
  · cases h
  rename_i hbucket
  cases h
  rw [if_neg hsize, if_neg hbucket]
  exact ⟨rfl, rfl⟩

theorem settled_of_call (hlow : 0 < threshold) (hhigh : threshold ≤ 1) {m : DrainMiner}
    (h : (m.callWith .exact threshold c).2 = .ok (t, params))
    (hne : tokenizeBorrowed c.message ≠ []) :
    Settled threshold (m.callWith .exact threshold c).1 (tokenizeBorrowed c.message) t := by
  unfold callWith at h ⊢
  cases hscan : m.scanBestWith .exact threshold (tokenizeBorrowed c.message) c.cancel with
  | error e =>
    rw [hscan] at h
    cases h
  | ok best =>
    have hbest := scanBestWith_exact hlow hscan
    rw [hscan] at h
    cases best with
    | some id =>
      obtain ⟨p, hp, hlen⟩ := scanBestWith_some hscan
      obtain ⟨merged, heq, -, hcov, -⟩ := afterScan_some hp hlen
      rw [heq] at h ⊢
      cases h
      exact settled_absorb hhigh hne hbest.symm hp hcov _ _
    | none =>
      obtain ⟨rfl, heq⟩ := afterScan_none h
      rw [heq]
      exact settled_create hhigh hne hbest.symm _ _ _

theorem scanBestWith_blank (hlow : 0 < threshold) {m : DrainMiner} {tokens : List Token}
    {best : Option Nat} (hblank : tokens = [])
    (h : m.scanBestWith .exact threshold tokens cancel = .ok best) : best = none := by
  have hempty : m.meeting threshold tokens = [] := by
    unfold meeting
    rw [filter_eq_nil_iff]
    intro id _
    have hzero : m.similarityOf threshold tokens id = 0 := by
      unfold similarityOf
      split
      · rfl
      split
      · rfl
      · rename_i p _ hlen
        rw [hblank, length_nil, Decidable.not_not, length_eq_zero_iff] at hlen
        rw [hlen]
        unfold similarityWith
        exact if_pos (by simp)
    rw [hzero]
    simpa using hlow
  rw [scanBestWith_exact hlow h, hempty]
  rfl

theorem callWith_blank (hlow : 0 < threshold) {m : DrainMiner}
    (h : (m.callWith .exact threshold c).2 = .ok (t, params))
    (hblank : tokenizeBorrowed c.message = []) :
    t = m.nextId ∧ (m.callWith .exact threshold c).1.nextId = m.nextId + 1 := by
  unfold callWith at h ⊢
  cases hscan : m.scanBestWith .exact threshold (tokenizeBorrowed c.message) c.cancel with
  | error e =>
    rw [hscan] at h
    cases h
  | ok best =>
    obtain rfl := scanBestWith_blank hlow hblank hscan
    rw [hscan] at h
    obtain ⟨ht, heq⟩ := afterScan_none h
    rw [heq]
    exact ⟨ht, rfl⟩

theorem callWith_room {S : Type} {A : Arithmetic S} {threshold : S} {m : DrainMiner}
    (hscan : m.scanBestWith A threshold (tokenizeBorrowed c.message) c.cancel = .ok none)
    (hsize : m.templates.size < m.maxTemplates)
    (hbucket : (m.bucket (tokenizeBorrowed c.message).length).length < m.maxPerBucket) :
    m.callWith A threshold c =
      (m.create c.message (tokenizeBorrowed c.message) c.ts (levelSeverity c.level),
        .ok (m.nextId, [])) := by
  unfold callWith afterScan
  rw [hscan]
  simp only
  rw [if_neg (by omega), if_neg (by omega)]

/-- After a call that returned, every call with the same message finds the same template and
changes no pattern exactly when the message has a token. -/
theorem repeated_message_found (m : DrainMiner) {threshold : ℚ} (hlow : 1 / 10 ≤ threshold)
    (hhigh : threshold ≤ 1) (c : Call) {t : Nat} {params : List Token}
    (h : (m.callWith .exact threshold c).2 = .ok (t, params)) :
    (∀ calls : List Call, (∀ d ∈ calls, d.message = c.message ∧ d.Uncancelled) →
      AllFind threshold (m.callWith .exact threshold c).1 calls t) ↔
      tokenizeBorrowed c.message ≠ [] := by
  have hpos : 0 < threshold := by linarith
  constructor
  · intro hall hblank
    -- one more call with a flag that is never raised
    obtain ⟨hfind, -⟩ := hall [{ c with cancel := none }] (by simp [Call.Uncancelled])
    obtain ⟨params', hanswer⟩ := hfind _ mem_cons_self
    obtain ⟨ht, hnext⟩ := callWith_blank hpos h hblank
    obtain ⟨ht', -⟩ := callWith_blank hpos hanswer hblank
    omega
  · intro hne calls hcalls
    refine (settled_of_call hpos hhigh h hne).calls hpos fun d hd => ?_
    obtain ⟨hmessage, hd⟩ := hcalls d hd
    exact ⟨by rw [hmessage], hd⟩

/-- Two separators in a row are two templates. -/
theorem repeated_separators_apart :
    let m := withBounds 4 80 0.5 maxDrainTemplates maxDrainTemplatesPerLengthBucket
    let c : Call := ⟨[','], 0, "info".toList, none⟩
    (m.callWith .exact (1 / 2) c).2 = .ok (1, []) ∧
      ((m.callWith .exact (1 / 2) c).1.callWith .exact (1 / 2) c).2 = .ok (2, []) := by
  intro m c
  have hblank : tokenizeBorrowed c.message = [] := by decide
  have hscan : ∀ m' : DrainMiner,
      m'.scanBestWith .exact (1 / 2) (tokenizeBorrowed c.message) c.cancel = .ok none := by
    intro m'
    obtain ⟨r, hr⟩ := scanBestWith_uncancelled .exact (1 / 2) m' (c := c) (fun _ => rfl)
      (tokenizeBorrowed c.message)
    rw [hr, scanBestWith_blank (by norm_num) hblank hr]
  have hfirst := callWith_room (hscan m) (by simp [m, withBounds, maxDrainTemplates])
    (by simp [m, withBounds, bucket, maxDrainTemplatesPerLengthBucket])
  rw [hfirst]
  refine ⟨rfl, ?_⟩
  rw [callWith_room (hscan _)]
  · rfl
  · simp [m, create, withBounds, maxDrainTemplates, Std.HashMap.size_insert]
  · rw [create_bucket, if_pos rfl]
    simp [m, create, withBounds, bucket, maxDrainTemplatesPerLengthBucket]

/-- A message with a token finds its template again. -/
theorem repeated_message_found_sample :
    let m := withBounds 4 80 0.5 maxDrainTemplates maxDrainTemplatesPerLengthBucket
    let c : Call := ⟨"disk full".toList, 0, "info".toList, none⟩
    AllFind (1 / 2) (m.callWith .exact (1 / 2) c).1 [c, c] 1 := by
  intro m c
  have h : (m.callWith .exact (1 / 2) c).2 = .ok (1, []) := by
    rw [callWith_room]
    · rfl
    · simp [scanBestWith, m, withBounds]
    · simp [m, withBounds, maxDrainTemplates]
    · simp [m, withBounds, bucket, maxDrainTemplatesPerLengthBucket]
  refine (repeated_message_found m (by norm_num) (by norm_num) c h).mpr (by decide) [c, c] ?_
  intro d hd
  have hd : d = c := by simpa using hd
  rw [hd]
  exact ⟨rfl, fun _ => rfl⟩

end DrainMiner

end ContextDesk.LogAnalysis
