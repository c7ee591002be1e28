import ContextDesk.LogAnalysis.Drain

/-!
# Invariants of the template miner

`Covers pattern tokens` says that a pattern is the tokens with some of them replaced by the
placeholder; it is the relation between a pattern and a message assigned to it, and between a
later pattern of a template and an earlier one. `CallEffect` says once what a call can do: refuse
and change nothing, take the message into a template of the same length, or create a template under
both caps. `Consistent` is what the four maps and the history keep through every call;
`run_consistent` is the statement for whole sequences of calls.
-/

open List

namespace ContextDesk.LogAnalysis

open Lib Lib.Text Lib.Str

namespace Drain

/-- Every token of the pattern is the placeholder or the token at its position. -/
def Covers (pattern tokens : List Token) : Prop :=
  Forall₂ (fun p t => p = wildcard ∨ p = t) pattern tokens

theorem Covers.refl (tokens : List Token) : Covers tokens tokens :=
  forall₂_same.mpr fun _ _ => .inr rfl

theorem Covers.trans {a b c : List Token} (h : Covers a b) (h' : Covers b c) : Covers a c := by
  unfold Covers at h h' ⊢
  induction h generalizing c with
  | nil => exact h'
  | cons hpt _ ih =>
    cases h' with
    | cons hpt' hrest =>
      refine .cons ?_ (ih hrest)
      rcases hpt with h | rfl
      · exact .inl h
      · exact hpt'

theorem Covers.length {a b : List Token} (h : Covers a b) : a.length = b.length :=
  Forall₂.length_eq h

variable {pat msg : List Token}

theorem mergePattern_covers (h : pat.length = msg.length) :
    Covers (mergePattern pat msg) pat ∧ Covers (mergePattern pat msg) msg := by
  induction pat generalizing msg with
  | nil =>
    cases msg with
    | nil => exact ⟨.nil, .nil⟩
    | cons _ _ => cases h
  | cons p pat ih =>
    cases msg with
    | nil => cases h
    | cons t msg =>
      obtain ⟨hp, ht⟩ := ih (by simpa using h)
      have hhead : ∀ x, x = p ∨ x = t →
          ((if p = wildcard || p = t then p else wildcard) = wildcard ∨
            (if p = wildcard || p = t then p else wildcard) = x) := by
        intro x hx
        by_cases hw : p = wildcard
        · exact .inl (by simp [hw])
        · by_cases he : p = t
          · refine .inr ?_
            rcases hx with rfl | rfl <;> simp [he]
          · exact .inl (by simp [hw, he])
      exact ⟨.cons (hhead p (.inl rfl)) hp, .cons (hhead t (.inr rfl)) ht⟩

theorem covers_of_no_merge (hlen : pat.length = msg.length)
    (h : (pat.zip msg).any (fun (p, t) => p ≠ wildcard && p ≠ t) = false) : Covers pat msg := by
  induction pat generalizing msg with
  | nil =>
    cases msg with
    | nil => exact .nil
    | cons _ _ => cases hlen
  | cons p pat ih =>
    cases msg with
    | nil => cases hlen
    | cons t msg =>
      simp only [zip_cons_cons, any_cons, Bool.or_eq_false_iff] at h
      refine .cons ?_ (ih (by simpa using hlen) h.2)
      have hpt := h.1
      simp only [ne_eq, decide_not, Bool.and_eq_false_iff, Bool.not_eq_false',
        decide_eq_true_eq] at hpt
      exact hpt

theorem no_merge_of_covers (h : Covers pat msg) :
    (pat.zip msg).any (fun (p, t) => p ≠ wildcard && p ≠ t) = false := by
  induction h with
  | nil => rfl
  | cons hpt _ ih =>
    rw [zip_cons_cons, any_cons, ih]
    rcases hpt with rfl | rfl <;> simp

end Drain

namespace DrainMiner

open Drain

/-! ## What a call can do -/

section

variable {S : Type} {A : Arithmetic S} {threshold : S}

variable {m : DrainMiner} {tokens : List Token}

variable {cancel : Option (Nat → Bool)}

theorem scanWith_ok {ids : List Nat} {scanI : Nat} {best r : Option (Nat × S)}
    (h : m.scanWith A threshold tokens cancel scanI best ids = .ok r)
    (hbest : ∀ b ∈ best, ∃ p, m.patternTokens[b.1]? = some p ∧ p.length = tokens.length) :
    ∀ b ∈ r, ∃ p, m.patternTokens[b.1]? = some p ∧ p.length = tokens.length := by
  induction ids generalizing scanI best with
  | nil =>
    simp only [scanWith, Except.ok.injEq] at h
    exact h ▸ hbest
  | cons id ids ih =>
    unfold scanWith at h
    split at h
    · cases h
    split at h
    · exact ih h hbest
    rename_i p hp
    split at h
    · exact ih h hbest
    rename_i hlen
    simp only at h
    split at h
    · refine ih h ?_
      rintro b hb
      obtain rfl : (id, _) = b := by simpa using hb
      exact ⟨p, hp, by simpa using hlen⟩
    · exact ih h hbest

theorem scanWith_error {ids : List Nat} {scanI : Nat} {best : Option (Nat × S)} {e : DrainFault}
    (h : m.scanWith A threshold tokens cancel scanI best ids = .error e) : e = .cancelled := by
  induction ids generalizing scanI best with
  | nil => cases h
  | cons id ids ih =>
    unfold scanWith at h
    split at h
    · cases h
      rfl
    split at h
    · exact ih h
    split at h
    · exact ih h
    simp only at h
    split at h
    · exact ih h
    · exact ih h

theorem scanBestWith_some {id : Nat}
    (h : m.scanBestWith A threshold tokens cancel = .ok (some id)) :
    ∃ p, m.patternTokens[id]? = some p ∧ p.length = tokens.length := by
  unfold scanBestWith at h
  split at h
  · cases h
  · rename_i ids _
    cases hs : m.scanWith A threshold tokens cancel 0 none ids with
    | error e => rw [hs] at h; cases h
    | ok r =>
      rw [hs] at h
      simp only [Except.map, Except.ok.injEq, Option.map_eq_some_iff] at h
      obtain ⟨b, hb, rfl⟩ := h
      exact scanWith_ok hs (by simp) b hb

theorem scanBestWith_error {e : DrainFault}
    (h : m.scanBestWith A threshold tokens cancel = .error e) : e = .cancelled := by
  unfold scanBestWith at h
  split at h
  · cases h
  · rename_i ids _
    cases hs : m.scanWith A threshold tokens cancel 0 none ids with
    | ok r => rw [hs] at h; cases h
    | error e' =>
      rw [hs] at h
      cases h
      exact scanWith_error hs

end

/-- What a call with the given tokens can do to the miner, and what it returns. -/
inductive CallEffect (m : DrainMiner) (tokens : List Token) :
    DrainMiner → Except DrainFault (Nat × List Token) → Prop where
  | refused {e : DrainFault} : (∀ message, e ≠ .expect message) → CallEffect m tokens m (.error e)
  | absorbed {id : Nat} {p : List Token} (merged : Option (List Token)) (ts : Int) (sev : Nat)
      (params : List Token) : m.patternTokens[id]? = some p →
      Covers (merged.getD p) p → Covers (merged.getD p) tokens →
      CallEffect m tokens (m.absorb id merged ts sev) (.ok (id, params))
  | created (message : List Char) (ts : Int) (sev : Nat) : m.templates.size < m.maxTemplates →
      (m.bucket tokens.length).length < m.maxPerBucket →
      CallEffect m tokens (m.create message tokens ts sev) (.ok (m.nextId, []))

variable {m : DrainMiner} {id : Nat} {p : List Token}

theorem afterScan_some {c : Call} (hp : m.patternTokens[id]? = some p)
    (hlen : p.length = (tokenizeBorrowed c.message).length) :
    ∃ merged, m.afterScan c (.ok (some id)) =
        (m.absorb id merged c.ts (levelSeverity c.level),
          .ok (id, tokenParams p (tokenizeBorrowed c.message))) ∧
      Covers (merged.getD p) p ∧ Covers (merged.getD p) (tokenizeBorrowed c.message) ∧
      (Covers p (tokenizeBorrowed c.message) → merged = none) := by
  unfold afterScan
  simp only [hp]
  refine ⟨_, rfl, ?_, ?_, fun hcov => ?_⟩
  · split
    · exact (mergePattern_covers hlen).1
    · exact .refl p
  · split
    · exact (mergePattern_covers hlen).2
    · rename_i hno
      exact covers_of_no_merge hlen (by simpa using hno)
  · rw [no_merge_of_covers hcov]
    rfl

theorem callWith_effect {S : Type} (A : Arithmetic S) (threshold : S) (m : DrainMiner) (c : Call) :
    CallEffect m (tokenizeBorrowed c.message) (m.callWith A threshold c).1
      (m.callWith A threshold c).2 := by
  unfold callWith
  cases hscan : m.scanBestWith A threshold (tokenizeBorrowed c.message) c.cancel with
  | error e =>
    refine .refused fun message h => ?_
    rw [scanBestWith_error hscan] at h
    cases h
  | ok best =>
    cases best with
    | some id =>
      obtain ⟨p, hp, hlen⟩ := scanBestWith_some hscan
      obtain ⟨merged, heq, hgen, hcov, -⟩ := afterScan_some hp hlen
      rw [heq]
      exact .absorbed merged c.ts _ _ hp hgen hcov
    | none =>
      unfold afterScan
      simp only
      split
      · exact .refused fun message h => by cases h
      split
      · exact .refused fun message h => by cases h
      · exact .created _ _ _ (by omega) (by omega)

theorem call_effect (m : DrainMiner) (c : Call) :
    CallEffect m (tokenizeBorrowed c.message) (m.call c).1 (m.call c).2 := by
  rw [← callWith_float32]
  exact callWith_effect .float32 m.simThreshold m c

/-! ## The maps after a call -/

theorem lookup_insert {β : Type} (map : Std.HashMap Nat β) (id k : Nat) (v : β) :
    (map.insert id v)[k]? = if k = id then some v else map[k]? := by
  rw [Std.HashMap.getElem?_insert]
  by_cases hk : k = id
  · simp [hk]
  · simp [hk, Ne.symm hk]

theorem absorb_patternTokens (hp : m.patternTokens[id]? = some p) (merged : Option (List Token))
    (ts : Int) (sev k : Nat) :
    (m.absorb id merged ts sev).patternTokens[k]? =
      if k = id then some (merged.getD p) else m.patternTokens[k]? := by
  unfold absorb
  cases merged with
  | none =>
    by_cases hk : k = id
    · simp [hk, hp]
    · simp [hk]
  | some q =>
    simp only [Option.getD_some, lookup_insert]

def absorbedInfo (t : TemplateInfo) (merged : Option (List Token)) (ts : Int) (sev : Nat) :
    TemplateInfo :=
  { t with
    count := t.count + 1
    lastSeen := ts
    severity := max t.severity sev
    pattern := (merged.map joinTokens).getD t.pattern
    tokenCount := (merged.map List.length).getD t.tokenCount }

theorem absorb_templates {t : TemplateInfo} (ht : m.templates[id]? = some t)
    (merged : Option (List Token)) (ts : Int) (sev k : Nat) :
    (m.absorb id merged ts sev).templates[k]? =
      if k = id then some (absorbedInfo t merged ts sev) else m.templates[k]? := by
  unfold absorb absorbedInfo
  simp only [ht]
  cases merged <;> simp [lookup_insert]

theorem absorb_size {t : TemplateInfo} (ht : m.templates[id]? = some t)
    (merged : Option (List Token)) (ts : Int) (sev : Nat) :
    (m.absorb id merged ts sev).templates.size = m.templates.size := by
  have hmem : id ∈ m.templates := Std.HashMap.mem_iff_isSome_getElem?.mpr (by simp [ht])
  unfold absorb
  simp only [ht]
  rw [Std.HashMap.size_insert, if_pos hmem]

@[simp] theorem absorb_bucket (m : DrainMiner) (id : Nat) (merged : Option (List Token)) (ts : Int)
    (sev len : Nat) : (m.absorb id merged ts sev).bucket len = m.bucket len := rfl

theorem create_patternTokens (m : DrainMiner) (message : List Char) (tokens : List Token)
    (ts : Int) (sev k : Nat) :
    (m.create message tokens ts sev).patternTokens[k]? =
      if k = m.nextId then some tokens else m.patternTokens[k]? := by
  unfold create
  simp only [lookup_insert]

theorem create_templates (m : DrainMiner) (message : List Char) (tokens : List Token)
    (ts : Int) (sev k : Nat) :
    (m.create message tokens ts sev).templates[k]? =
      if k = m.nextId then
        some ⟨m.nextId, joinTokens tokens, tokens.length, 1, ts, ts, sev, message.take 240⟩
      else m.templates[k]? := by
  unfold create
  simp only [lookup_insert]

theorem create_bucket (m : DrainMiner) (message : List Char) (tokens : List Token)
    (ts : Int) (sev len : Nat) :
    (m.create message tokens ts sev).bucket len =
      if len = tokens.length then m.bucket tokens.length ++ [m.nextId] else m.bucket len := by
  unfold create bucket
  simp only [lookup_insert]
  split <;> rfl

def countOf (m : DrainMiner) (id : Nat) : Nat := (m.templates[id]?.map TemplateInfo.count).getD 0

/-! ## The invariant -/

/-- What the maps of a miner keep, given what its calls were assigned to. -/
structure Consistent (m : DrainMiner) (assigned : List (Nat × List Token)) : Prop where
  /-- The ids are `1..n`. -/
  ids : ∀ id : Nat, m.templates[id]?.isSome ↔ 1 ≤ id ∧ id ≤ m.templates.size
  next : m.nextId = m.templates.size + 1
  bounded : m.templates.size ≤ m.maxTemplates
  own : ∀ (id : Nat) (t : TemplateInfo), m.templates[id]? = some t → t.templateId = id
  /-- A template and its tokens have one domain, and the template shows the tokens. -/
  tokens : ∀ (id : Nat) (t : TemplateInfo), m.templates[id]? = some t →
    ∃ p, m.patternTokens[id]? = some p ∧ p.length = t.tokenCount ∧ t.pattern = joinTokens p
  known : ∀ (id : Nat) (p : List Token), m.patternTokens[id]? = some p → m.templates[id]?.isSome
  /-- An id stands in the bucket of its token count and in no other. -/
  buckets : ∀ len id, id ∈ m.bucket len ↔ ∃ p, m.patternTokens[id]? = some p ∧ p.length = len
  increasing : ∀ len, (m.bucket len).Pairwise (· < ·)
  bucketBounded : ∀ len, (m.bucket len).length ≤ m.maxPerBucket
  counts : ∑ id ∈ Finset.Icc 1 m.templates.size, m.countOf id = assigned.length
  /-- Every message assigned to a template matches its pattern. -/
  covered : ∀ (id : Nat) (tokens : List Token), (id, tokens) ∈ assigned →
    ∃ p, m.patternTokens[id]? = some p ∧ Covers p tokens

theorem consistent_withBounds (depth maxChildren : Nat) (simThreshold : Float32)
    (maxTemplates maxPerBucket : Nat) :
    Consistent (withBounds depth maxChildren simThreshold maxTemplates maxPerBucket) [] where
  ids id := by
    simp only [withBounds, Std.HashMap.getElem?_empty, Std.HashMap.size_empty]
    simp
    omega
  next := rfl
  bounded := Nat.zero_le _
  own id t h := by simp [withBounds] at h
  tokens id t h := by simp [withBounds] at h
  known id p h := by simp [withBounds] at h
  buckets len id := by simp [withBounds, bucket]
  increasing len := by simp [withBounds, bucket]
  bucketBounded len := by simp [withBounds, bucket]
  counts := by simp [withBounds]
  covered id tokens h := by cases h

variable {assigned : List (Nat × List Token)}

theorem Consistent.template (h : Consistent m assigned) (hp : m.patternTokens[id]? = some p) :
    ∃ t, m.templates[id]? = some t ∧ p.length = t.tokenCount ∧ t.pattern = joinTokens p := by
  obtain ⟨t, ht⟩ := Option.isSome_iff_exists.mp (h.known id p hp)
  obtain ⟨q, hq, hlen, hpat⟩ := h.tokens id t ht
  rw [hp] at hq
  cases hq
  exact ⟨t, ht, hlen, hpat⟩

/-- A template takes a message in. -/
theorem Consistent.absorb (h : Consistent m assigned) {tokens : List Token}
    {merged : Option (List Token)} (hp : m.patternTokens[id]? = some p)
    (hgen : Covers (merged.getD p) p) (hcov : Covers (merged.getD p) tokens) (ts : Int)
    (sev : Nat) : Consistent (m.absorb id merged ts sev) (assigned ++ [(id, tokens)]) := by
  obtain ⟨t, ht, hlen, hpat⟩ := h.template hp
  have htemplates := absorb_templates ht merged ts sev
  have hpatterns := absorb_patternTokens hp merged ts sev
  have hsize := absorb_size ht merged ts sev
  have hdom : ∀ k : Nat, (m.absorb id merged ts sev).templates[k]?.isSome = m.templates[k]?.isSome := by
    intro k
    rw [htemplates]
    by_cases hk : k = id
    · simp [hk, ht]
    · simp [hk]
  refine ⟨?_, ?_, ?_, ?_, ?_, ?_, ?_, h.increasing, h.bucketBounded, ?_, ?_⟩
  · intro k
    rw [hdom, hsize]
    exact h.ids k
  · rw [hsize]
    exact h.next
  · rw [hsize]
    exact h.bounded
  · intro k u hu
    rw [htemplates] at hu
    split at hu
    · cases hu
      rename_i hk
      rw [hk]
      exact h.own id t ht
    · exact h.own k u hu
  · intro k u hu
    rw [htemplates] at hu
    rw [hpatterns]
    split at hu
    · cases hu
      rename_i hk
      rw [if_pos hk]
      refine ⟨_, rfl, ?_, ?_⟩
      · cases merged with
        | none => exact hlen
        | some q => rfl
      · cases merged with
        | none => exact hpat
        | some q => rfl
    · rename_i hk
      rw [if_neg hk]
      exact h.tokens k u hu
  · intro k q hq
    rw [hdom]
    rw [hpatterns] at hq
    split at hq
    · rename_i hk
      rw [hk]
      exact h.known id p hp
    · exact h.known k q hq
  · intro len k
    rw [absorb_bucket, h.buckets, hpatterns]
    split
    · rename_i hk
      simp only [hk, hp, Option.some.injEq, exists_eq_left', hgen.length]
    · rfl
  · have hcount : ∀ k, (m.absorb id merged ts sev).countOf k =
        m.countOf k + if k = id then 1 else 0 := by
      intro k
      unfold countOf
      rw [htemplates]
      by_cases hk : k = id
      · simp [hk, ht, absorbedInfo]
      · simp [hk]
    have hid : id ∈ Finset.Icc 1 m.templates.size :=
      Finset.mem_Icc.mpr ((h.ids id).mp (by simp [ht]))
    rw [hsize]
    simp only [hcount, Finset.sum_add_distrib, Finset.sum_ite_eq', hid, if_true, h.counts,
      length_append, length_singleton]
  · intro k toks hmem
    rw [hpatterns]
    rcases mem_append.mp hmem with hold | hnew
    · obtain ⟨q, hq, hcq⟩ := h.covered k toks hold
      split
      · rename_i hk
        rw [hk, hp] at hq
        cases hq
        exact ⟨_, rfl, hgen.trans hcq⟩
      · exact ⟨q, hq, hcq⟩
    · cases mem_singleton.mp hnew
      rw [if_pos rfl]
      exact ⟨_, rfl, hcov⟩

/-- A message opens a template. -/
theorem Consistent.create (h : Consistent m assigned) {tokens : List Token}
    (hroom : m.templates.size < m.maxTemplates)
    (hbucket : (m.bucket tokens.length).length < m.maxPerBucket) (message : List Char) (ts : Int)
    (sev : Nat) :
    Consistent (m.create message tokens ts sev) (assigned ++ [(m.nextId, tokens)]) := by
  have hpatterns := create_patternTokens m message tokens ts sev
  have hbuckets := create_bucket m message tokens ts sev
  have hnone : m.templates[m.nextId]? = none := by
    rw [← Option.not_isSome_iff_eq_none, h.ids, h.next]
    omega
  have hfresh : m.patternTokens[m.nextId]? = none := by
    by_contra hne
    obtain ⟨p, hp⟩ := Option.ne_none_iff_exists'.mp hne
    have := h.known _ _ hp
    rw [hnone] at this
    cases this
  have hnotin : m.nextId ∉ m.templates := by
    rw [Std.HashMap.mem_iff_isSome_getElem?, hnone]
    simp
  have hsize : (m.create message tokens ts sev).templates.size = m.templates.size + 1 := by
    unfold DrainMiner.create
    simp only
    rw [Std.HashMap.size_insert, if_neg hnotin]
  have htemplates := create_templates m message tokens ts sev
  have hnext := h.next
  refine ⟨?_, ?_, ?_, ?_, ?_, ?_, ?_, ?_, ?_, ?_, ?_⟩
  · intro k
    rw [htemplates, hsize]
    split
    · simp only [Option.isSome_some, true_iff]
      omega
    · rw [h.ids]
      omega
  · rw [hsize]
    show m.nextId + 1 = _
    omega
  · rw [hsize]
    exact hroom
  · intro k u hu
    rw [htemplates] at hu
    split at hu
    · cases hu
      exact Eq.symm ‹_›
    · exact h.own k u hu
  · intro k u hu
    rw [htemplates] at hu
    rw [hpatterns]
    split at hu
    · cases hu
      rename_i hk
      rw [if_pos hk]
      exact ⟨tokens, rfl, rfl, rfl⟩
    · rename_i hk
      rw [if_neg hk]
      exact h.tokens k u hu
  · intro k q hq
    rw [hpatterns] at hq
    rw [htemplates]
    split at hq
    · rename_i hk
      simp [hk]
    · rename_i hk
      rw [if_neg hk]
      exact h.known k q hq
  · intro len k
    rw [hbuckets, hpatterns]
    by_cases hl : len = tokens.length
    · simp only [hl, if_true, mem_append, mem_singleton, h.buckets]
      by_cases hk : k = m.nextId
      · simp [hk]
      · simp [hk]
    · simp only [hl, if_false, h.buckets]
      by_cases hk : k = m.nextId
      · simp [hk, hfresh, Ne.symm hl]
      · simp [hk]
  · intro len
    rw [hbuckets]
    split
    · refine pairwise_append.mpr ⟨h.increasing _, by simp, ?_⟩
      intro a ha b hb
      obtain ⟨p, hp, -⟩ := (h.buckets _ a).mp ha
      have hle := ((h.ids a).mp (h.known a p hp)).2
      rw [mem_singleton.mp hb]
      omega
    · exact h.increasing len
  · intro len
    rw [hbuckets]
    split
    · rw [length_append, length_singleton]
      exact hbucket
    · exact h.bucketBounded len
  · have hnew : (m.create message tokens ts sev).countOf (m.templates.size + 1) = 1 := by
      unfold countOf
      rw [htemplates, if_pos (by omega)]
      rfl
    have hold : ∀ k ∈ Finset.Icc 1 m.templates.size,
        (m.create message tokens ts sev).countOf k = m.countOf k := by
      intro k hk
      have hle := (Finset.mem_Icc.mp hk).2
      unfold countOf
      rw [htemplates, if_neg (by omega)]
    rw [hsize, Finset.sum_Icc_succ_top (by omega), hnew, Finset.sum_congr rfl hold, h.counts,
      length_append, length_singleton]
  · intro k toks hmem
    rw [hpatterns]
    rcases mem_append.mp hmem with hold | hnew
    · obtain ⟨q, hq, hcq⟩ := h.covered k toks hold
      rw [if_neg]
      · exact ⟨q, hq, hcq⟩
      · rintro rfl
        rw [hfresh] at hq
        cases hq
    · cases mem_singleton.mp hnew
      rw [if_pos rfl]
      exact ⟨tokens, rfl, .refl tokens⟩

/-! ## Sequences of calls -/

theorem Consistent.call (h : Consistent m assigned) (c : Call) :
    Consistent (m.call c).1 (assigned ++ assignment c (m.call c).2) := by
  have heffect := call_effect m c
  generalize (m.call c).1 = m', (m.call c).2 = r at heffect
  cases heffect with
  | refused _ => simpa [assignment] using h
  | absorbed merged ts sev params hp hgen hcov => exact h.absorb hp hgen hcov ts sev
  | created message ts sev hroom hbucket => exact h.create hroom hbucket message ts sev

theorem Consistent.call_generalises (h : Consistent m assigned) (c : Call)
    (hp : m.patternTokens[id]? = some p) :
    ∃ q, (m.call c).1.patternTokens[id]? = some q ∧ Covers q p := by
  have heffect := call_effect m c
  generalize (m.call c).1 = m', (m.call c).2 = r at heffect
  cases heffect with
  | refused _ => exact ⟨p, hp, .refl p⟩
  | @absorbed k q merged ts sev params hq hgen _ =>
    rw [absorb_patternTokens hq]
    split
    · rename_i hk
      rw [hk, hq] at hp
      cases hp
      exact ⟨_, rfl, hgen⟩
    · exact ⟨p, hp, .refl p⟩
  | created message ts sev _ _ =>
    have hle := ((h.ids id).mp (h.known id p hp)).2
    have hnext := h.next
    rw [create_patternTokens, if_neg (by omega)]
    exact ⟨p, hp, .refl p⟩

theorem call_error {c : Call} {e : DrainFault} (h : (m.call c).2 = .error e) :
    (m.call c).1 = m ∧ ∀ message, e ≠ .expect message := by
  have heffect := call_effect m c
  rw [h] at heffect
  generalize (m.call c).1 = m' at heffect
  cases heffect with
  | refused he => exact ⟨rfl, he⟩

theorem Consistent.run (h : Consistent m assigned) (calls : List Call) :
    Consistent (m.run assigned calls).1 (m.run assigned calls).2 := by
  induction calls generalizing m assigned with
  | nil => exact h
  | cons c calls ih => exact ih (h.call c)

/-- In every state a sequence of calls reaches, the maps are consistent with the calls that
returned; the next call changes patterns only to more general ones, and changes nothing when it
fails. -/
theorem run_consistent (depth maxChildren : Nat) (simThreshold : Float32)
    (maxTemplates maxPerBucket : Nat) (calls : List Call) :
    let reached :=
      (withBounds depth maxChildren simThreshold maxTemplates maxPerBucket).run [] calls
    Consistent reached.1 reached.2 ∧
      ∀ c : Call,
        (∀ (id : Nat) (p : List Token), reached.1.patternTokens[id]? = some p →
          ∃ q, (reached.1.call c).1.patternTokens[id]? = some q ∧ Covers q p) ∧
        ∀ e, (reached.1.call c).2 = .error e →
          (reached.1.call c).1 = reached.1 ∧ ∀ message, e ≠ .expect message := by
  intro reached
  have h : Consistent reached.1 reached.2 := (consistent_withBounds ..).run calls
  refine ⟨h, fun c => ⟨fun id p hp => h.call_generalises c hp, fun e he => call_error he⟩⟩

end DrainMiner

end ContextDesk.LogAnalysis
