import ContextDesk.Redact

/-!
# The passes as rewritings

For every pass the edit it makes at one place of the text, as a function of the characters from
there on: `awsAccessKeyEdit`, `githubTokenEdit`, `prefixedKeyEdit`, `bearerEdit`, `urlValueEdit`,
`jwtEdit`, `entropyEdit`. Each of these passes is the rewriting of its edit: its byte indices
fall on character boundaries, whatever the text, and its loops end.
-/

namespace ContextDesk.Redact

open Lib.Text Lib.Str Lib.ByteIndex Lib.Rewrite List

variable {l : List Char}

theorem startsWith_iff {part : String} :
    startsWith part l = true ↔ ∃ rest, l = part.toList ++ rest := by
  unfold startsWith
  rw [List.isPrefixOf_iff_prefix]
  constructor
  · rintro ⟨rest, h⟩
    exact ⟨rest, h.symm⟩
  · rintro ⟨rest, h⟩
    exact ⟨rest, h.symm⟩

theorem startsWith_append (part : String) (rest : List Char) :
    startsWith part (part.toList ++ rest) = true := startsWith_iff.mpr ⟨rest, rfl⟩

theorem scan_self {needle : String} (hneedle : needle ≠ "") {act : List Char → Option Edit}
    {body : List Char → Nat → Exec (List Char × Nat × Bool)} (h : Lib.Rewrite.Follows id needle act body)
    (out : List Char) :
    scan (List.map id) needle body (out.length + 1) 0 out false = .ok (rewrite act 0 out) := by
  have hs := scan_eq_rewrite (fun _ => rfl) hneedle h [] out false (Nat.lt_succ_self out.length)
  simpa using hs

theorem follows_self {needle : String} {act : List Char → Option Edit}
    {body : List Char → Nat → Exec (List Char × Nat × Bool)}
    (hmiss : ∀ l, startsWith needle l = false → act l = none)
    (hhit : ∀ pre rest, ∃ e, act (needle.toList ++ rest) = some e ∧ 0 < e.consumed ∧
      body (pre ++ (needle.toList ++ rest)) (byteLen pre) =
        .ok (pre ++ (e.text ++ (needle.toList ++ rest).drop e.consumed), byteLen (pre ++ e.text),
          e.changed)) : Lib.Rewrite.Follows id needle act body := by
  constructor
  · intro l hl
    rw [map_id] at hl
    exact hmiss l hl
  · intro pre here hh
    rw [map_id] at hh
    obtain ⟨rest, rfl⟩ := startsWith_iff.mp hh
    exact hhit pre rest

theorem take_run (p : Char → Bool) (l : List Char) :
    l.take (l.takeWhile p).length = l.takeWhile p := by
  induction l with
  | nil => rfl
  | cons c l ih =>
    rw [takeWhile_cons]
    split
    · rw [length_cons, take_succ_cons, ih]
    · rfl

theorem drop_run (p : Char → Bool) (l : List Char) :
    l.drop (l.takeWhile p).length = l.dropWhile p := by
  induction l with
  | nil => rfl
  | cons c l ih =>
    rw [takeWhile_cons, dropWhile_cons]
    split
    · rw [length_cons, drop_succ_cons, ih]
    · rfl

theorem sliceFrom_behind (pre marker rest : List Char) :
    sliceFrom (pre ++ (marker ++ rest)) (byteLen pre + byteLen marker) = .ok rest := by
  rw [← append_assoc, ← byteLen_append, sliceFrom_append]

theorem drop_key (key : String) (rest : List Char) :
    (key.toList ++ rest).drop key.length = rest := by
  rw [← String.length_toList, drop_left]

variable {key : String}

theorem length_key_pos (hkey : key ≠ "") : 0 < key.length := by
  rw [← String.length_toList]
  exact length_pos_of_ne_nil fun h => hkey (String.toList_injective h)

theorem replaceRange_run (pre marker rest new : List Char) (p : Char → Bool) :
    replaceRange (pre ++ (marker ++ rest)) (byteLen pre)
        (byteLen pre + byteLen marker + byteLen (rest.takeWhile p)) new =
      .ok (pre ++ (new ++ rest.dropWhile p)) := by
  have h := replaceRange_append pre (marker ++ rest.takeWhile p) (rest.dropWhile p) new
  rw [append_assoc, takeWhile_append_dropWhile, byteLen_append, ← Nat.add_assoc,
    append_assoc] at h
  exact h

/-! ## AWS access keys -/

def awsAccessKeyEdit (here : List Char) : Option Edit :=
  if startsWith "AKIA" here then
    if 20 ≤ here.length ∧ (here.take 20).all isAwsKeyChar then
      some ⟨"AKIA[REDACTED]".toList, 20, true⟩
    else some ⟨"AKIA".toList, 4, false⟩
  else none

theorem awsAccessKey_follows : Lib.Rewrite.Follows id "AKIA" awsAccessKeyEdit awsAccessKeyAt := by
  refine follows_self (fun l hl => if_neg (by simp [hl])) fun pre rest => ?_
  have hstart := startsWith_append "AKIA" rest
  generalize hhere : "AKIA".toList ++ rest = here at hstart ⊢
  have hslice : sliceFrom (pre ++ here) (byteLen pre) = .ok here := sliceFrom_append pre here
  have h4 : here.take 4 = "AKIA".toList := by rw [← hhere]; rfl
  unfold awsAccessKeyEdit awsAccessKeyAt
  rw [if_pos hstart]
  simp only [hslice, bind, Except.bind, length_take, take_take]
  by_cases hkey : 20 ≤ here.length ∧ (here.take 20).all isAwsKeyChar
  · refine ⟨_, if_pos hkey, by decide, ?_⟩
    rw [if_pos ⟨by omega, hkey.2, by rw [show min 4 20 = 4 from rfl, h4]⟩]
    have hsplit : here = here.take 20 ++ here.drop 20 := (take_append_drop 20 here).symm
    have hreplace := replaceRange_append pre (here.take 20) (here.drop 20) "AKIA[REDACTED]".toList
    rw [← hsplit] at hreplace
    rw [hreplace]
    simp only [pure, Except.pure, append_assoc, byteLen_append]
    rfl
  · refine ⟨_, if_neg hkey, by decide, ?_⟩
    rw [if_neg (fun h => hkey ⟨by omega, h.2.1⟩)]
    have hsplit : here = here.take 4 ++ here.drop 4 := (take_append_drop 4 here).symm
    simp only [pure, Except.pure, byteLen_append]
    rw [← h4, ← hsplit, h4]
    rfl

variable (out : List Char)

theorem redactAwsAccessKey_eq : redactAwsAccessKey out = .ok (rewrite awsAccessKeyEdit 0 out) :=
  scan_self (by decide) awsAccessKey_follows out

/-! ## Tokens behind a prefix -/

def githubTokenEdit (key : String) (here : List Char) : Option Edit :=
  if startsWith key here then
    let tok := (here.drop key.length).takeWhile isGithubChar
    if 20 ≤ tok.length then
      some ⟨"[REDACTED_GH_TOKEN]".toList, key.length + tok.length, true⟩
    else some ⟨key.toList, key.length, false⟩
  else none

theorem githubToken_follows (hkey : key ≠ "") :
    Lib.Rewrite.Follows id key (githubTokenEdit key) (githubTokenAt key) := by
  refine follows_self (fun l hl => if_neg (by simp [hl])) fun pre rest => ?_
  unfold githubTokenEdit githubTokenAt
  rw [if_pos (startsWith_append key rest)]
  simp only [sliceFrom_behind, bind, Except.bind, drop_key, take_run]
  by_cases htok : 20 ≤ (rest.takeWhile isGithubChar).length
  · refine ⟨_, if_pos htok, by simp only; omega, ?_⟩
    rw [if_pos htok]
    rw [replaceRange_run]
    simp only [pure, Except.pure, byteLen_append]
    rw [← drop_drop, drop_key, drop_run]
    rfl
  · refine ⟨_, if_neg htok, length_key_pos hkey, ?_⟩
    rw [if_neg htok]
    simp only [pure, Except.pure, byteLen_append, drop_key]

def prefixedKeyEdit (key : String) (here : List Char) : Option Edit :=
  if startsWith key here then
    let tok := (here.drop key.length).takeWhile isKeyChar
    if 8 ≤ tok.length then some ⟨(key ++ "***").toList, key.length + tok.length, true⟩
    else some ⟨key.toList, key.length, false⟩
  else none

theorem prefixedKey_follows (hkey : key ≠ "") :
    Lib.Rewrite.Follows id key (prefixedKeyEdit key) (prefixedKeyAt key) := by
  refine follows_self (fun l hl => if_neg (by simp [hl])) fun pre rest => ?_
  unfold prefixedKeyEdit prefixedKeyAt
  rw [if_pos (startsWith_append key rest)]
  simp only [sliceFrom_behind, bind, Except.bind, drop_key, take_run]
  by_cases htok : 8 ≤ (rest.takeWhile isKeyChar).length
  · refine ⟨_, if_pos htok, by simp only; omega, ?_⟩
    rw [if_pos htok]
    rw [replaceRange_run]
    simp only [pure, Except.pure, byteLen_append, String.toList_append]
    rw [← drop_drop, drop_key, drop_run, ← Nat.add_assoc]
    rfl
  · refine ⟨_, if_neg htok, length_key_pos hkey, ?_⟩
    rw [if_neg htok]
    simp only [pure, Except.pure, byteLen_append, drop_key]

def bearerEdit (here : List Char) : Option Edit :=
  if startsWith "Bearer " here then
    if startsWith "***" (here.drop 7) then some ⟨"Bearer ***".toList, 10, false⟩
    else
      let tok := (here.drop 7).takeWhile isBearerChar
      if tok.length = 0 then some ⟨"Bearer ".toList, 7, false⟩
      else some ⟨"Bearer ***".toList, 7 + tok.length, true⟩
  else none

theorem bearer_follows : Lib.Rewrite.Follows id "Bearer " bearerEdit bearerAt := by
  refine follows_self (fun l hl => if_neg (by simp [hl])) fun pre rest => ?_
  have h7 : byteLen "Bearer ".toList = 7 := by decide
  have hslice : sliceFrom (pre ++ ("Bearer ".toList ++ rest)) (byteLen pre + 7) = .ok rest := by
    rw [← append_assoc, ← h7, ← byteLen_append, sliceFrom_append]
  have hdrop : ("Bearer ".toList ++ rest).drop 7 = rest := rfl
  unfold bearerEdit bearerAt
  rw [if_pos (startsWith_append "Bearer " rest)]
  simp only [hslice, bind, Except.bind, hdrop, take_run]
  by_cases hstars : startsWith "***" rest = true
  · refine ⟨_, if_pos hstars, by decide, ?_⟩
    obtain ⟨more, rfl⟩ := startsWith_iff.mp hstars
    rw [if_pos hstars]
    simp only [pure, Except.pure, byteLen_append]
    rfl
  · by_cases htok : (rest.takeWhile isBearerChar).length = 0
    · refine ⟨_, (if_neg hstars).trans (if_pos htok), by decide, ?_⟩
      rw [if_neg hstars, if_pos htok]
      simp only [pure, Except.pure, byteLen_append, hdrop, h7]
    · refine ⟨_, (if_neg hstars).trans (if_neg htok), by simp only; omega, ?_⟩
      rw [if_neg hstars, if_neg htok]
      have hmin : min (byteLen pre + 7 + byteLen (rest.takeWhile isBearerChar))
          (byteLen (pre ++ ("Bearer ".toList ++ rest))) =
          byteLen pre + 7 + byteLen (rest.takeWhile isBearerChar) := by
        have hrun := takeWhile_append_dropWhile (p := isBearerChar) (l := rest)
        rw [byteLen_append, byteLen_append, h7, ← hrun, byteLen_append, hrun]
        omega
      have hreplace := replaceRange_run pre "Bearer ".toList rest "Bearer ***".toList isBearerChar
      rw [h7] at hreplace
      rw [hmin, hreplace]
      simp only [pure, Except.pure, byteLen_append]
      rw [← drop_drop, hdrop, drop_run]
      rfl

theorem redactBearer_eq : redactBearer out = .ok (rewrite bearerEdit 0 out) :=
  scan_self (by decide) bearer_follows out

/-! ## One key after the other -/

/-- The rewritings of one key after the other. -/
def rewriteEach (edit : String → List Char → Option Edit) (keys : List String)
    (out : List Char) : List Char × Bool :=
  keys.foldl (fun r key =>
    ((rewrite (edit key) 0 r.1).1, r.2 || (rewrite (edit key) 0 r.1).2)) (out, false)

theorem eachKey_eq {pass : String → Pass} {edit : String → List Char → Option Edit}
    {keys : List String} (h : ∀ key ∈ keys, ∀ out, pass key out = .ok (rewrite (edit key) 0 out))
    (out : List Char) : eachKey pass keys out = .ok (rewriteEach edit keys out) := by
  unfold eachKey rewriteEach
  generalize (out, false) = r
  induction keys generalizing r with
  | nil => rfl
  | cons key keys ih =>
    obtain ⟨now, changed⟩ := r
    have hkey := h key mem_cons_self now
    rw [foldlM_cons, foldl_cons]
    simp only [hkey]
    exact ih (fun k hk => h k (mem_cons_of_mem key hk)) _

theorem redactGithubTokens_eq :
    redactGithubTokens out = .ok (rewriteEach githubTokenEdit githubPrefixes out) := by
  refine eachKey_eq (fun key hkey out => ?_) out
  have hne : key ≠ "" := by
    rintro rfl
    exact absurd hkey (by decide)
  exact scan_self hne (githubToken_follows hne) out

theorem redactPrefixedKeys_eq :
    redactPrefixedKeys out = .ok (rewriteEach prefixedKeyEdit keyPrefixes out) := by
  refine eachKey_eq (fun key hkey out => ?_) out
  have hne : key ≠ "" := by
    rintro rfl
    exact absurd hkey (by decide)
  exact scan_self hne (prefixedKey_follows hne) out

/-! ## Credentials in connection strings and query parameters -/

def urlValueEdit (key : String) (here : List Char) : Option Edit :=
  if startsWith key (here.map Char.toLower) then
    let value := (here.drop key.length).takeWhile isUrlValueChar
    if value = [] then some ⟨here.take key.length, key.length, false⟩
    else some ⟨here.take key.length ++ "***".toList, key.length + value.length, true⟩
  else none

theorem utf8Size_toLower (c : Char) : c.toLower.utf8Size = c.utf8Size := by
  by_cases h : c.isUpper = true
  · have hn := toNat_toLower c
    have hr : 65 ≤ c.toNat ∧ c.toNat ≤ 90 := by
      simpa [Char.isUpper, UInt32.le_iff_toNat_le] using h
    rw [if_pos hr] at hn
    rw [utf8Size_ascii (decide_eq_true (show c.toNat < 128 by omega)),
      utf8Size_ascii (decide_eq_true (show c.toLower.toNat < 128 by omega))]
  · rw [Char.toLower_eq_of_not_isUpper h]

theorem byteLen_eq_zero : byteLen l = 0 ↔ l = [] := by
  constructor
  · intro h
    have := length_le_byteLen l
    exact length_eq_zero_iff.mp (by omega)
  · rintro rfl
    rfl

theorem urlValue_follows (hkey : key ≠ "") :
    Lib.Rewrite.Follows Char.toLower key (urlValueEdit key) (urlValueAt key) := by
  refine ⟨fun l hl => if_neg (by simp [hl]), fun pre here hhit => ?_⟩
  -- the marker as the text has it, in any case, is as many bytes as the key
  obtain ⟨lower, hlower⟩ := startsWith_iff.mp hhit
  have hlen : key.toList.length = key.length := String.length_toList
  have hmark : (here.take key.length).map Char.toLower = key.toList := by
    rw [map_take, hlower, ← hlen, take_left]
  have hbytes : byteLen (here.take key.length) = byteLen key.toList := by
    rw [← hmark, byteLen_map utf8Size_toLower]
  have hslice : sliceFrom (pre ++ here) (byteLen pre + byteLen key.toList) =
      .ok (here.drop key.length) := by
    have h := sliceFrom_behind pre (here.take key.length) (here.drop key.length)
    rwa [take_append_drop, hbytes] at h
  unfold urlValueEdit urlValueAt
  rw [if_pos hhit]
  simp only [hslice, bind, Except.bind, byteLen_eq_zero]
  by_cases hv : (here.drop key.length).takeWhile isUrlValueChar = []
  · refine ⟨_, if_pos hv, length_key_pos hkey, ?_⟩
    rw [if_pos hv]
    simp only [pure, Except.pure, byteLen_append, hbytes, take_append_drop]
  · refine ⟨_, if_neg hv, Nat.add_pos_left (length_key_pos hkey) _, ?_⟩
    rw [if_neg hv]
    have hreplace := replaceRange_append (pre ++ here.take key.length)
      ((here.drop key.length).takeWhile isUrlValueChar)
      ((here.drop key.length).dropWhile isUrlValueChar) "***".toList
    rw [takeWhile_append_dropWhile, append_assoc, take_append_drop, byteLen_append,
      hbytes] at hreplace
    rw [hreplace]
    simp only [pure, Except.pure, byteLen_append, hbytes, append_assoc]
    rw [← drop_drop, drop_run, ← Nat.add_assoc]
    rfl

theorem redactUrl_eq :
    redactUrlEmbeddedCredentials out = .ok (rewriteEach urlValueEdit urlKeys out) := by
  refine eachKey_eq (fun key hkey out => ?_) out
  have hne : key ≠ "" := by
    rintro rfl
    exact absurd hkey (by decide)
  have hs := scan_eq_rewrite utf8Size_toLower hne (urlValue_follows hne) [] out false
    (Nat.lt_succ_self out.length)
  simpa using hs

/-! ## Scans of the bytes -/

variable {c : Char}

theorem ascii_of_isAlphanum (h : c.isAlphanum = true) : ascii c = true := by
  have hz : c.toNat ≤ 122 := by
    simp only [Char.isAlphanum, Char.isAlpha, Char.isUpper, Char.isLower, Char.isDigit,
      Bool.or_eq_true, Bool.and_eq_true, decide_eq_true_eq, UInt32.le_iff_toNat_le] at h
    rcases h with (h | h) | h
    · exact h.2.trans (by decide)
    · exact h.2
    · exact h.2.trans (by decide)
  exact decide_eq_true (show c.toNat < 128 by omega)

theorem isRunChar_eq : isRunChar = isJwtChar := by
  funext c
  unfold isRunChar isJwtChar
  rw [Bool.or_assoc, Bool.or_assoc, Bool.or_comm (decide (c = '_'))]

theorem ascii_of_isJwtChar (h : isJwtChar c = true) : ascii c = true := by
  simp only [isJwtChar, Bool.or_eq_true, decide_eq_true_eq] at h
  rcases h with (h | rfl) | rfl
  · exact ascii_of_isAlphanum h
  · decide
  · decide

theorem char_of_byte {p : Char → Bool} {b : UInt8} {s : List UInt8} (h : bytes l = b :: s)
    (hb : onByte p b = true) : ∃ c m, l = c :: m ∧ ascii c = true ∧ p c = true ∧ bytes m = s := by
  cases l with
  | nil => cases h
  | cons c m =>
    rw [bytes_cons] at h
    by_cases hc : ascii c = true
    · obtain ⟨b', hb', hp⟩ := encode_ascii hc
      rw [hb', cons_append, nil_append] at h
      obtain ⟨rfl, rfl⟩ := cons.inj h
      exact ⟨c, m, rfl, hc, by rw [← hp p, hb], rfl⟩
    · cases he : String.utf8EncodeChar c with
      | nil => exact absurd he String.utf8EncodeChar_ne_nil
      | cons b' bs =>
        have hwide := encode_wide (by simpa using hc) b' (by rw [he]; exact mem_cons_self) p
        rw [he, cons_append] at h
        rw [(cons.inj h).1, hb] at hwide
        cases hwide

/-! ## JSON web tokens -/

def isJwtRun (c : Char) : Bool := isJwtChar c || c = '.'

def jwtEdit (here : List Char) : Option Edit :=
  if startsWith "eyJ" here then
    let run := here.takeWhile isJwtRun
    if run.count '.' = 2 ∧ 30 ≤ run.length then
      some ⟨"[REDACTED_JWT]".toList, run.length, true⟩
    else none
  else none

theorem ascii_of_isJwtRun (h : isJwtRun c = true) : ascii c = true := by
  simp only [isJwtRun, Bool.or_eq_true, decide_eq_true_eq] at h
  rcases h with h | rfl
  · exact ascii_of_isJwtChar h
  · decide

theorem jwtScan_bytes (l : List Char) (dots i : Nat) :
    jwtScan (bytes l) dots i =
      (dots + (l.takeWhile isJwtRun).count '.', i + (l.takeWhile isJwtRun).length) := by
  induction l generalizing dots i with
  | nil => rfl
  | cons c l ih =>
    rw [bytes_cons, takeWhile_cons]
    by_cases hc : ascii c = true
    · obtain ⟨b, hb, hp⟩ := encode_ascii hc
      rw [hb, cons_append, nil_append, jwtScan, hp, hp]
      by_cases hdot : c = '.'
      · subst hdot
        rw [if_pos (by decide), if_pos (by decide), ih, count_cons_self, length_cons]
        simp only [Nat.add_assoc, Nat.add_comm 1]
      · have hrun : isJwtRun c = isJwtChar c := by simp [isJwtRun, hdot]
        rw [if_neg (by simpa using hdot), hrun]
        cases isJwtChar c with
        | true =>
          rw [if_pos rfl, if_pos rfl, ih, count_cons_of_ne (Ne.symm (Ne.symm hdot)),
            length_cons]
          simp only [Nat.add_assoc, Nat.add_comm 1]
        | false => rfl
    · have hrun : isJwtRun c = false := by
        by_contra h
        exact hc (ascii_of_isJwtRun (by simpa using h))
      rw [hrun, if_neg (by simp)]
      cases he : String.utf8EncodeChar c with
      | nil => exact absurd he String.utf8EncodeChar_ne_nil
      | cons b bs =>
        have hwide := encode_wide (by simpa using hc) b (by rw [he]; exact mem_cons_self)
        rw [cons_append, jwtScan, hwide, hwide]
        rfl

theorem jwtStarts_bytes (l : List Char) : jwtStarts (bytes l) = startsWith "eyJ" l := by
  by_cases h : startsWith "eyJ" l = true
  · rw [h]
    obtain ⟨rest, rfl⟩ := startsWith_iff.mp h
    rw [bytes_append]
    rfl
  · rw [Bool.not_eq_true] at h
    rw [h]
    by_contra hne
    rw [Bool.not_eq_false] at hne
    unfold jwtStarts at hne
    split at hne
    · rename_i e y j s hl
      rw [Bool.and_eq_true, Bool.and_eq_true] at hne
      obtain ⟨c, m, rfl, -, hc, hm⟩ := char_of_byte hl hne.1.1
      obtain ⟨c', m', rfl, -, hc', hm'⟩ := char_of_byte hm hne.1.2
      obtain ⟨c'', m'', rfl, -, hc'', -⟩ := char_of_byte hm' hne.2
      obtain rfl := of_decide_eq_true hc
      obtain rfl := of_decide_eq_true hc'
      obtain rfl := of_decide_eq_true hc''
      have hstarts : startsWith "eyJ" ('e' :: 'y' :: 'J' :: m'') = true :=
        startsWith_iff.mpr ⟨m'', rfl⟩
      rw [hstarts] at h
      cases h
    · cases hne

theorem jwtLen_bytes (l : List Char) : jwtLen (bytes l) =
    if (l.takeWhile isJwtRun).count '.' = 2 ∧ 30 ≤ (l.takeWhile isJwtRun).length then
      some (l.takeWhile isJwtRun).length else none := by
  unfold jwtLen
  rw [jwtScan_bytes]
  simp only [Nat.zero_add]

variable {here : List Char}

theorem jwtEdit_some {e : Edit} (h : jwtEdit here = some e) :
    startsWith "eyJ" here = true ∧ (here.takeWhile isJwtRun).count '.' = 2 ∧
      30 ≤ (here.takeWhile isJwtRun).length ∧
      e = ⟨"[REDACTED_JWT]".toList, (here.takeWhile isJwtRun).length, true⟩ := by
  unfold jwtEdit at h
  split at h
  · rename_i hs
    simp only at h
    split at h
    · rename_i hrun
      exact ⟨hs, hrun.1, hrun.2, (Option.some.inj h).symm⟩
    · cases h
  · cases h

theorem jwt_places : Places "[REDACTED_JWT]".toList jwtEdit := by
  constructor
  · intro here e h
    obtain ⟨-, -, h30, rfl⟩ := jwtEdit_some h
    simp only
    omega
  · intro here e h
    obtain ⟨-, -, -, rfl⟩ := jwtEdit_some h
    exact (List.takeWhile_prefix _).length_le
  · intro here e h
    obtain ⟨-, -, -, rfl⟩ := jwtEdit_some h
    rfl

theorem jwtLoop_at {out : List Char} {fuel : Nat} {pre : List Char} {acc : List (Nat × Nat)}
    (hout : pre ++ here = out) (hend : byteLen pre + 10 < byteLen out) :
    jwtLoop (bytes out) (fuel + 1) (byteLen pre) acc =
      match jwtEdit here with
      | none => jwtLoop (bytes out) fuel (byteLen pre + 1) acc
      | some e => jwtLoop (bytes out) fuel (byteLen pre + e.consumed)
          (acc ++ [(byteLen pre, byteLen pre + e.consumed)]) := by
  have hdrop : (bytes out).drop (byteLen pre) = bytes here := by rw [← hout, drop_bytes]
  rw [jwtLoop, length_bytes, if_pos hend, hdrop, jwtStarts_bytes, jwtLen_bytes]
  unfold jwtEdit
  by_cases hs : startsWith "eyJ" here = true
  · rw [if_pos hs, if_pos hs]
    simp only
    by_cases hrun : (here.takeWhile isJwtRun).count '.' = 2 ∧
        30 ≤ (here.takeWhile isJwtRun).length
    · rw [if_pos hrun, if_pos hrun]
      simp only [if_pos hrun.2]
    · rw [if_neg hrun, if_neg hrun]
  · rw [if_neg hs, if_neg hs]

theorem jwt_walks : Walks jwtEdit out 10 (jwtLoop (bytes out)) := by
  constructor
  · intro fuel i acc h
    rw [jwtLoop, length_bytes, if_neg (by omega)]
  · intro l hl
    by_contra h
    obtain ⟨e, he⟩ := Option.ne_none_iff_exists'.mp h
    obtain ⟨-, -, h30, -⟩ := jwtEdit_some he
    have := (List.takeWhile_prefix isJwtRun (l := l)).length_le
    have := length_le_byteLen l
    omega
  · intro fuel i acc b hi hb hwide
    have hlt : i < (bytes out).length := by rw [length_bytes]; omega
    have hstarts : jwtStarts ((bytes out).drop i) = false := by
      rw [drop_eq_getElem_cons hlt]
      rw [getElem?_eq_getElem hlt] at hb
      rw [Option.some.inj hb]
      unfold jwtStarts
      split
      · rename_i e y j s hl
        rw [← (cons.inj hl).1, hwide]
        rfl
      · rfl
    rw [jwtLoop, length_bytes, if_pos hi, hstarts, if_neg (by simp)]
  · intro c l h
    obtain ⟨e, he⟩ := Option.ne_none_iff_exists'.mp h
    obtain ⟨rest, hr⟩ := startsWith_iff.mp (jwtEdit_some he).1
    rw [(cons.inj hr).1]
    decide
  · intro fuel pre c l acc hout _ hend hact
    rw [jwtLoop_at hout hend, hact]
  · intro fuel pre here acc e hout _ hend hact
    rw [jwtLoop_at hout hend, hact]
    obtain ⟨-, -, -, rfl⟩ := jwtEdit_some hact
    have hlen : byteLen (here.takeWhile isJwtRun) = (here.takeWhile isJwtRun).length :=
      byteLen_ascii fun c hc => ascii_of_isJwtRun (mem_takeWhile_imp hc)
    simp only [take_run, hlen, if_true]

theorem redactJwt_eq : redactJwt out = .ok (rewrite jwtEdit 0 out) :=
  replaceRanges_of_walks jwt_places (jwt_walks out)

/-! ## High-entropy runs -/

def entropyEdit : List Char → Option Edit
  | [] => none
  | c :: l =>
    if isRunChar c then
      let run := (c :: l).takeWhile isRunChar
      some ⟨if isSecretRun run then "[REDACTED_SECRET]".toList else run, run.length,
        isSecretRun run⟩
    else none

theorem entropyEdit_some {e : Edit} (h : entropyEdit here = some e) :
    (∃ c l, here = c :: l ∧ isRunChar c = true) ∧
      e = ⟨if isSecretRun (here.takeWhile isRunChar) then "[REDACTED_SECRET]".toList
          else here.takeWhile isRunChar, (here.takeWhile isRunChar).length,
        isSecretRun (here.takeWhile isRunChar)⟩ := by
  cases here with
  | nil => cases h
  | cons c l =>
    rw [entropyEdit] at h
    split at h
    · rename_i hc
      exact ⟨⟨c, l, rfl, hc⟩, (Option.some.inj h).symm⟩
    · cases h

theorem entropy_places : Places "[REDACTED_SECRET]".toList entropyEdit := by
  constructor
  · intro here e h
    obtain ⟨⟨c, l, rfl, hc⟩, rfl⟩ := entropyEdit_some h
    simp only [takeWhile_cons, hc, if_true, length_cons]
    omega
  · intro here e h
    obtain ⟨-, rfl⟩ := entropyEdit_some h
    exact (List.takeWhile_prefix _).length_le
  · intro here e h
    obtain ⟨-, rfl⟩ := entropyEdit_some h
    simp only [take_run]

theorem entropy_walks : Walks entropyEdit out 0 (entropyLoop out (bytes out)) := by
  have hrunByte : ∀ c, isRunChar c = true → ascii c = true := fun c hc =>
    ascii_of_isJwtChar (by rwa [isRunChar_eq] at hc)
  have hget : ∀ pre c l, pre ++ c :: l = out → ascii c = true →
      ∃ b, (bytes out)[byteLen pre]? = some b ∧ ∀ p, onByte p b = p c := by
    intro pre c l hout hc
    obtain ⟨b, hb, hp⟩ := encode_ascii hc
    refine ⟨b, ?_, hp⟩
    rw [← head?_drop, ← hout, drop_bytes, bytes_cons, hb]
    rfl
  constructor
  · intro fuel i acc h
    have hnone : (bytes out)[i]? = none := by
      rw [List.getElem?_eq_none_iff, length_bytes]
      omega
    rw [entropyLoop, hnone]
    rfl
  · intro l hl
    have hnil : l = [] := byteLen_eq_zero.mp (by omega)
    rw [hnil]
    rfl
  · intro fuel i acc b _ hb hwide
    rw [entropyLoop, hb]
    simp only [hwide, Bool.false_eq_true, if_false]
  · intro c l h
    obtain ⟨e, he⟩ := Option.ne_none_iff_exists'.mp h
    obtain ⟨⟨c', l', hcl, hc⟩, -⟩ := entropyEdit_some he
    rw [(cons.inj hcl).1]
    exact hrunByte c' hc
  · intro fuel pre c l acc hout hc _ hact
    obtain ⟨b, hb, hp⟩ := hget pre c l hout hc
    have hrun : isRunChar c = false := by
      by_contra h
      rw [Bool.not_eq_false] at h
      rw [entropyEdit, if_pos h] at hact
      cases hact
    rw [entropyLoop, hb]
    simp only [hp, hrun, Bool.false_eq_true, if_false]
  · intro fuel pre here acc e hout _ _ hact
    obtain ⟨⟨c, l, rfl, hc⟩, rfl⟩ := entropyEdit_some hact
    obtain ⟨b, hb, hp⟩ := hget pre c l hout (hrunByte c hc)
    have hbytes : ((bytes out).drop (byteLen pre)).takeWhile (onByte isRunChar) =
        bytes ((c :: l).takeWhile isRunChar) := by
      rw [← hout, drop_bytes, takeWhile_bytes hrunByte]
    have hslice : slice out (byteLen pre)
        (byteLen pre + byteLen ((c :: l).takeWhile isRunChar)) =
        .ok ((c :: l).takeWhile isRunChar) := by
      have h := slice_append pre ((c :: l).takeWhile isRunChar) ((c :: l).dropWhile isRunChar)
      rwa [takeWhile_append_dropWhile, hout] at h
    rw [entropyLoop, hb]
    simp only [hp, hc, if_true, hbytes, length_bytes, hslice, bind, Except.bind, take_run]

theorem redactHighEntropy_eq : redactHighEntropy out = .ok (rewrite entropyEdit 0 out) :=
  replaceRanges_of_walks entropy_places (entropy_walks out)

end ContextDesk.Redact
