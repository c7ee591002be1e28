import ContextDesk.RedactBoundaries

/-!
# Redaction on log ingest

`prepareOriginalRecord` normalizes a source record, redacts it and bounds what is stored of it. The
flag `redactionApplied` is the report of `redactCandidate`, so a text it calls unredacted should
be the text it was given. A pass that is `Faithful` changes nothing it does not report, and every
pass but the first is. The PEM pass rewrites the marker of a block that holds no key, and restores
it only when another block held one.
-/

namespace ContextDesk.Redact

open Lib.Text Lib.Str Lib.ByteIndex Lib.Rewrite
open Lib.Utf8

/-! ## The record -/

def maxOriginalRedactedBytes : Nat := 64 * 1024

structure RedactedOriginal where
  text : String
  sourceByteCount : Nat
  redactedCharCount : Nat
  truncated : Bool
  encodingNormalized : Bool
  redactionApplied : Bool
  deriving DecidableEq

structure PreparedOriginal where
  parserText : String
  stored : RedactedOriginal
  deriving DecidableEq

/-- `slice::strip_suffix` of one byte. -/
def stripByte (b : UInt8) (bytes : List UInt8) : List UInt8 :=
  if bytes.getLast? = some b then bytes.dropLast else bytes

def normalizedBytes (rawRecord : List UInt8) : List UInt8 := stripByte 13 (stripByte 10 rawRecord)

def truncateUtf8Bytes (value : String) (maxBytes : Nat) : String × Bool :=
  if value.utf8ByteSize ≤ maxBytes then (value, false)
  else (String.ofList (truncateBytes value.toList maxBytes), true)

def prepareOriginalRecord (alphanumeric : Char → Bool) (rawRecord : List UInt8) :
    Exec PreparedOriginal := do
  let bytes := normalizedBytes rawRecord
  let (decoded, encodingNormalized) := fromUtf8Lossy bytes
  let redaction ← redactCandidate alphanumeric decoded
  let parserText := redaction.text
  let (text, truncated) := truncateUtf8Bytes parserText maxOriginalRedactedBytes
  return {
    parserText := parserText
    stored := {
      text := text
      sourceByteCount := bytes.length
      redactedCharCount := parserText.length
      truncated := truncated
      encodingNormalized := encodingNormalized
      redactionApplied := redaction.redacted || redaction.blocked } }

/-! ## Passes that report what they change -/

/-- A pass that reports nothing has changed nothing. -/
def Faithful (pass : Pass) : Prop := ∀ out out', pass out = .ok (out', false) → out' = out

theorem faithful_of_rewrite {pass : Pass} {edit : List Char → Option Edit} (hedit : Honest edit)
    (h : ∀ out, pass out = .ok (rewrite edit 0 out)) : Faithful pass := by
  intro out out' hpass
  rw [h out] at hpass
  have hr := Except.ok.inj hpass
  have hkept := rewrite_unchanged hedit (congrArg Prod.snd hr)
  rw [hr] at hkept
  exact hkept

variable {out : List Char}

theorem rewriteEach_unchanged {edit : String → List Char → Option Edit} {keys : List String}
    (hedit : ∀ key ∈ keys, Honest (edit key)) {out' : List Char}
    (h : rewriteEach edit keys out = (out', false)) : out' = out := by
  unfold rewriteEach at h
  -- a change that was reported once stays reported
  have hstays : ∀ (keys : List String) (r : List Char × Bool), r.2 = true →
      (keys.foldl (fun r key => ((rewrite (edit key) 0 r.1).1, r.2 || (rewrite (edit key) 0 r.1).2))
        r).2 = true := by
    intro keys
    induction keys with
    | nil => exact fun r hr => hr
    | cons key keys ih =>
      intro r hr
      exact ih _ (by simp [hr])
  induction keys generalizing out with
  | nil => exact (Prod.mk.inj h).1.symm
  | cons key keys ih =>
    rw [List.foldl_cons, Bool.false_or] at h
    cases hchanged : (rewrite (edit key) 0 out).2 with
    | true =>
      have htrue := hstays keys ((rewrite (edit key) 0 out).1, true) rfl
      rw [hchanged] at h
      rw [h] at htrue
      cases htrue
    | false =>
      have hsame := rewrite_unchanged (hedit key List.mem_cons_self) hchanged
      rw [hchanged, hsame] at h
      exact ih (fun k hk => hedit k (List.mem_cons_of_mem key hk)) h

theorem faithful_of_rewriteEach {pass : Pass} {edit : String → List Char → Option Edit}
    {keys : List String} (hedit : ∀ key ∈ keys, Honest (edit key))
    (h : ∀ out, pass out = .ok (rewriteEach edit keys out)) : Faithful pass := by
  intro out out' hpass
  rw [h out] at hpass
  exact rewriteEach_unchanged hedit (Except.ok.inj hpass)

/-- The passes of a list find something in a text. -/
def Finds (ps : List (String × Pass)) (out : List Char) : Prop :=
  ∃ p ∈ ps, ∃ out', p.2 out = .ok (out', true)

theorem pushClass_ne_nil (classes : List String) (c : String) : pushClass classes c ≠ [] := by
  unfold pushClass
  split
  · rename_i h
    rintro rfl
    simp at h
  · simp

variable {r : List Char × List String}

theorem runPasses_keeps_classes {ps : List (String × Pass)} {classes : List String}
    (h : runPasses ps out classes = .ok r) (hclasses : classes ≠ []) : r.2 ≠ [] := by
  induction ps generalizing out classes with
  | nil =>
    cases h
    exact hclasses
  | cons p ps ih =>
    rw [runPasses_cons] at h
    cases hp : p.2 out with
    | error e =>
      rw [hp] at h
      cases h
    | ok r' =>
      rw [hp] at h
      refine ih h ?_
      split
      · exact pushClass_ne_nil classes p.1
      · exact hclasses

/-- Faithful passes that report no class have found nothing, and the text is as it was. -/
theorem runPasses_unreported {ps : List (String × Pass)} (hps : ∀ p ∈ ps, Faithful p.2)
    (h : runPasses ps out [] = .ok r) : (r.2 = [] ↔ ¬ Finds ps out) ∧ (r.2 = [] → r.1 = out) := by
  induction ps generalizing out with
  | nil =>
    cases h
    exact ⟨⟨fun _ ⟨p, hp, _⟩ => (List.not_mem_nil hp).elim, fun _ => rfl⟩, fun _ => rfl⟩
  | cons p ps ih =>
    rw [runPasses_cons] at h
    cases hp : p.2 out with
    | error e =>
      rw [hp] at h
      cases h
    | ok r' =>
      obtain ⟨out', hit⟩ := r'
      rw [hp] at h
      cases hit with
      | true =>
        have hne := runPasses_keeps_classes h (pushClass_ne_nil [] p.1)
        exact ⟨⟨fun hnil => absurd hnil hne,
          fun hnone => absurd ⟨p, List.mem_cons_self, out', hp⟩ hnone⟩,
          fun hnil => absurd hnil hne⟩
      | false =>
        obtain rfl := hps p List.mem_cons_self out out' hp
        obtain ⟨hiff, hkept⟩ := ih (fun q hq => hps q (List.mem_cons_of_mem p hq)) h
        refine ⟨hiff.trans (not_congr ⟨?_, ?_⟩), hkept⟩
        · rintro ⟨q, hq, hfound⟩
          exact ⟨q, List.mem_cons_of_mem p hq, hfound⟩
        · rintro ⟨q, hq, found, hfound⟩
          rcases List.mem_cons.mp hq with rfl | hq
          · rw [hp] at hfound
            cases hfound
          · exact ⟨q, hq, found, hfound⟩

/-! ## The passes behind the first -/

variable {key : String}

theorem honest_of_key (hkey : key ≠ "") {act : List Char → Option Edit}
    (h : ∀ here e, act here = some e → e.changed = false →
      startsWith key here = true ∧ e = ⟨key.toList, key.length, false⟩) : Honest act := by
  intro here e he hc
  obtain ⟨hstarts, rfl⟩ := h here e he hc
  obtain ⟨rest, rfl⟩ := startsWith_iff.mp hstarts
  exact ⟨length_key_pos hkey, (List.take_left' String.length_toList).symm⟩

theorem awsAccessKey_honest : Honest awsAccessKeyEdit := by
  refine honest_of_key (show "AKIA" ≠ "" by decide) fun here e he hc => ?_
  unfold awsAccessKeyEdit at he
  split at he
  · rename_i hstarts
    split at he
    · cases he
      cases hc
    · exact ⟨hstarts, (Option.some.inj he).symm⟩
  · cases he

theorem githubToken_honest (hkey : key ≠ "") : Honest (githubTokenEdit key) := by
  refine honest_of_key hkey fun here e he hc => ?_
  unfold githubTokenEdit at he
  split at he
  · rename_i hstarts
    dsimp only at he
    split at he
    · cases he
      cases hc
    · exact ⟨hstarts, (Option.some.inj he).symm⟩
  · cases he

theorem prefixedKey_honest (hkey : key ≠ "") : Honest (prefixedKeyEdit key) := by
  refine honest_of_key hkey fun here e he hc => ?_
  unfold prefixedKeyEdit at he
  split at he
  · rename_i hstarts
    dsimp only at he
    split at he
    · cases he
      cases hc
    · exact ⟨hstarts, (Option.some.inj he).symm⟩
  · cases he

theorem bearer_honest : Honest bearerEdit := by
  intro here e he hc
  unfold bearerEdit at he
  split at he
  · rename_i hstarts
    obtain ⟨rest, rfl⟩ := startsWith_iff.mp hstarts
    split at he
    · rename_i hstars
      obtain ⟨more, hmore⟩ := startsWith_iff.mp hstars
      have hrest : rest = "***".toList ++ more := hmore
      cases he
      rw [hrest]
      exact ⟨by decide, rfl⟩
    · dsimp only at he
      split at he
      · cases he
        exact ⟨by decide, rfl⟩
      · cases he
        cases hc
  · cases he

theorem urlValue_honest (hkey : key ≠ "") : Honest (urlValueEdit key) := by
  intro here e he hc
  unfold urlValueEdit at he
  split at he
  · dsimp only at he
    split at he
    · cases he
      exact ⟨length_key_pos hkey, rfl⟩
    · cases he
      cases hc
  · cases he

theorem awsSecret_honest : Honest awsSecretEdit := by
  intro here e he hc
  unfold awsSecretEdit at he
  split at he
  · dsimp only at he
    split at he
    · cases he
      cases hc
    · cases he
      exact ⟨Nat.succ_pos 21, rfl⟩
  · cases he

theorem awsSecretLabel_faithful : Faithful redactAwsSecretLabel := by
  intro out out' h
  rw [redactAwsSecretLabel_eq] at h
  split at h
  · have hr := Except.ok.inj h
    have hkept := rewrite_unchanged awsSecret_honest (congrArg Prod.snd hr)
    rw [hr] at hkept
    exact hkept
  · cases h

def laterPasses : List (String × Pass) := passes.tail

theorem laterPasses_faithful : ∀ p ∈ laterPasses, Faithful p.2 := by
  have hgithub : ∀ key ∈ githubPrefixes, key ≠ "" := by decide
  have hkeys : ∀ key ∈ keyPrefixes, key ≠ "" := by decide
  have hurls : ∀ key ∈ urlKeys, key ≠ "" := by decide
  simp only [laterPasses, passes, List.tail_cons, List.forall_mem_cons, List.not_mem_nil,
    false_implies, implies_true, and_true]
  exact ⟨faithful_of_rewrite jwt_places.honest redactJwt_eq,
    faithful_of_rewrite awsAccessKey_honest redactAwsAccessKey_eq,
    awsSecretLabel_faithful,
    faithful_of_rewriteEach (fun key h => githubToken_honest (hgithub key h)) redactGithubTokens_eq,
    faithful_of_rewriteEach (fun key h => prefixedKey_honest (hkeys key h)) redactPrefixedKeys_eq,
    faithful_of_rewrite bearer_honest redactBearer_eq,
    faithful_of_rewriteEach (fun key h => urlValue_honest (hurls key h)) redactUrl_eq,
    faithful_of_rewrite entropy_places.honest redactHighEntropy_eq⟩

/-! ## The markers of the PEM pass -/

/-- The first marker of the text opens a complete block. -/
def opensBlock (l : List Char) : Bool :=
  match seek (startsWith "-----BEGIN ") l with
  | none => false
  | some (_, here) => (pemBlock here).isSome

/-- Where no key is found, the markers are left exactly when the first one opens no block. -/
theorem rewrite_pem_kept {l : List Char} (h : (rewrite pemEdit 0 l).2 = false) :
    (rewrite pemEdit 0 l).1 = l ↔ opensBlock l = false := by
  unfold opensBlock
  cases hs : seek (startsWith "-----BEGIN ") l with
  | none => simp [rewrite_of_seek_none pemEdit_miss hs]
  | some p =>
    obtain ⟨front, here⟩ := p
    cases hb : pemBlock here with
    | none => simp [rewrite_pem_break hs hb, hb]
    | some b =>
      have hhit := seek_hit hs
      have hne : here ≠ [] := by
        rintro rfl
        cases hhit
      rw [rewrite_of_seek pemEdit_miss hs] at h ⊢
      have hact : pemEdit here = if contains "PRIVATE KEY" b.1 then
          some ⟨"[REDACTED_PEM]".toList, b.1.length, true⟩
          else some ⟨"_____BEGIN ".toList, 11, false⟩ := by
        rw [pemEdit, if_pos hhit, hb]
      split at hact
      · rw [rewrite_some hact (length_block_pos hb) hne] at h
        cases h
      · -- the text behind `front` now starts with an underscore
        rw [rewrite_some hact (by decide) hne]
        refine ⟨fun heq => ?_, fun hno => by simp [hb] at hno⟩
        rw [seek_append hs] at heq
        obtain ⟨rest, rfl⟩ := startsWith_iff.mp hhit
        have hhead := congrArg List.head? (List.append_cancel_left heq)
        cases hhead

/-- A secret stands in the text: a key block, or what a later pass finds. -/
def SecretIn (l : List Char) : Prop :=
  (rewrite pemEdit 0 l).2 = true ∨ Finds laterPasses (rewrite pemEdit 0 l).1

theorem runPasses_passes (l : List Char) (h : runPasses passes l [] = .ok r) :
    (r.2 = [] ↔ ¬ SecretIn l) ∧
      (r.2 = [] → (r.1 = l ↔ opensBlock l = false)) := by
  have hpasses : passes = ("pem", redactPem) :: laterPasses := rfl
  rw [hpasses, runPasses_cons] at h
  simp only [redactPem_eq, bind, Except.bind] at h
  unfold SecretIn
  cases hkey : (rewrite pemEdit 0 l).2 with
  | true =>
    rw [hkey] at h
    have hne := runPasses_keeps_classes h (pushClass_ne_nil [] "pem")
    simp [hne]
  | false =>
    rw [hkey] at h
    obtain ⟨hiff, hkept⟩ := runPasses_unreported laterPasses_faithful h
    refine ⟨by simpa using hiff, fun hnil => ?_⟩
    have htext : r.1 = (rewrite pemEdit 0 l).1 := hkept hnil
    rw [htext]
    exact rewrite_pem_kept hkey

/-! ## What the report says -/

theorem redactCandidate_ok {alphanumeric : Char → Bool} {s : String} {r : RedactionResult}
    (h : redactCandidate alphanumeric s = .ok r) : ∃ out, runPasses passes s.toList [] =
      .ok (out, r.classes) ∧ r.text = String.ofList out ∧
      (r.redacted = false ↔ r.classes = []) ∧ (r.blocked = true → r.classes ≠ []) := by
  unfold redactCandidate at h
  cases hrun : runPasses passes s.toList [] with
  | error e =>
    rw [hrun] at h
    cases h
  | ok p =>
    obtain ⟨out, classes⟩ := p
    rw [hrun] at h
    simp only [bind, Except.bind] at h
    cases hblocked : isCredentialDominant alphanumeric s.toList classes with
    | error e =>
      rw [hblocked] at h
      cases h
    | ok blocked =>
      rw [hblocked] at h
      obtain rfl := Except.ok.inj h
      have hnone : blocked = true → classes ≠ [] := by
        rintro rfl rfl
        cases hblocked
      refine ⟨out, rfl, rfl, ?_, hnone⟩
      cases classes with
      | nil =>
        have hfalse : blocked = false := by simpa using hnone
        simp [hfalse]
      | cons c cs => simp

theorem redactCandidate_unreported {alphanumeric : Char → Bool} {s : String} {r : RedactionResult}
    (h : redactCandidate alphanumeric s = .ok r) :
    (r.redacted = false ↔ ¬ SecretIn s.toList) ∧
      (r.redacted = false → (r.text = s ↔ opensBlock s.toList = false)) := by
  obtain ⟨out, hrun, htext, hredacted, -⟩ := redactCandidate_ok h
  obtain ⟨hiff, hkept⟩ := runPasses_passes s.toList hrun
  refine ⟨hredacted.trans hiff, fun hr => ?_⟩
  rw [htext, ← hkept (hredacted.mp hr)]
  constructor
  · rintro rfl
    exact String.toList_ofList.symm
  · rintro heq
    rw [show out = s.toList from heq, String.ofList_toList]

/-- What is called unredacted is the text that was given, unless its first marker opens a block
and no secret stands in it. The flag of a source record says the same about its decoded text. -/
theorem redaction_reported_iff (alphanumeric : Char → Bool) :
    (∀ s r, redactCandidate alphanumeric s = .ok r →
      ((r.redacted = false → r.text = s) ↔
        (opensBlock s.toList = false ∨ SecretIn s.toList))) ∧
    (∀ rawRecord p, prepareOriginalRecord alphanumeric rawRecord = .ok p →
      let decoded := (fromUtf8Lossy (normalizedBytes rawRecord)).1
      ((p.stored.redactionApplied = false → p.parserText = decoded) ↔
        (opensBlock decoded.toList = false ∨ SecretIn decoded.toList))) := by
  have hcandidate : ∀ s r, redactCandidate alphanumeric s = .ok r →
      ((r.redacted = false → r.text = s) ↔
        (opensBlock s.toList = false ∨ SecretIn s.toList)) := by
    intro s r h
    obtain ⟨hsecret, htext⟩ := redactCandidate_unreported h
    by_cases hs : SecretIn s.toList
    · have hr : r.redacted ≠ false := fun hr => hsecret.mp hr hs
      simp [hs, hr]
    · have hr := hsecret.mpr hs
      simp [hs, hr, htext hr]
  refine ⟨hcandidate, fun rawRecord p h => ?_⟩
  intro decoded
  unfold prepareOriginalRecord at h
  cases hr : redactCandidate alphanumeric decoded with
  | error e =>
    simp only [decoded] at hr
    simp only [hr] at h
    cases h
  | ok r =>
    rw [← hcandidate decoded r hr]
    simp only [decoded] at hr
    simp only [hr] at h
    obtain rfl := Except.ok.inj h
    obtain ⟨-, -, -, hredacted, hblocked⟩ := redactCandidate_ok hr
    have hflag : (r.redacted || r.blocked) = r.redacted := by
      cases hb : r.blocked with
      | false => simp
      | true =>
        have htrue : r.redacted ≠ false := fun hf => hblocked hb (hredacted.mp hf)
        simpa using htrue
    show ((r.redacted || r.blocked) = false → r.text = decoded) ↔ _
    rw [hflag]

/-- A certificate is stored with another marker, and nothing is reported. -/
theorem certificate_marker_rewritten :
    redactCandidate Char.isAlphanum
        "-----BEGIN CERTIFICATE-----\nMIIB\n-----END CERTIFICATE-----" =
      .ok {
        text := "_____BEGIN CERTIFICATE-----\nMIIB\n-----END CERTIFICATE-----"
        redacted := false
        classes := []
        blocked := false
        blockReason := none } ∧
    "_____BEGIN CERTIFICATE-----\nMIIB\n-----END CERTIFICATE-----" ≠
      "-----BEGIN CERTIFICATE-----\nMIIB\n-----END CERTIFICATE-----" := by
  decide +kernel

/-- The flag of a line without a marker can be trusted. -/
theorem redaction_reported_iff_sample :
    (∃ r, redactCandidate Char.isAlphanum "plain line" = .ok r ∧ r.text = "plain line") ∧
    (∃ p, prepareOriginalRecord Char.isAlphanum (textBytes "plain line\r\n") = .ok p ∧
      p.parserText = "plain line") := by
  obtain ⟨hcandidate, hrecord⟩ := redaction_reported_iff Char.isAlphanum
  refine ⟨⟨⟨"plain line", false, [], false, none⟩, by decide +kernel, ?_⟩,
    ⟨⟨"plain line", ⟨"plain line", 10, 10, false, false, false⟩⟩, by decide +kernel, ?_⟩⟩
  · exact (hcandidate "plain line" _ (by decide +kernel)).mpr (.inl (by decide +kernel)) rfl
  · exact (hrecord (textBytes "plain line\r\n") _ (by decide +kernel)).mpr
      (.inl (by decide +kernel)) rfl

end ContextDesk.Redact
