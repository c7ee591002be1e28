import ContextDesk.RedactRewrite

/-!
# Character boundaries of the passes

The PEM pass is the rewriting of `pemEdit` on every text. The label pass is the rewriting of
`awsSecretEdit` where `labelsSafe` holds: it searches on one byte behind a label that it passes
over, which is inside a character when a longer one stands there, and panics. The other passes
take every text, so `redact_candidate` completes exactly on the texts that reach the label pass
safe.
-/

namespace ContextDesk.Redact

open Lib.Text Lib.Str Lib.ByteIndex Lib.Rewrite List

/-! ## Searching past what has no marker -/

def Lacks (needle : String) (l : List Char) : Prop := ∀ a b, l ≠ a ++ (needle.toList ++ b)

variable {needle : String} {l : List Char}

theorem Lacks.tail {c : Char} (h : Lacks needle (c :: l)) :
    Lacks needle l := fun a b hl => h (c :: a) b (by rw [hl]; rfl)

variable {here : List Char}

theorem seek_le {hit : List Char → Bool} (h : hit here = true) (front : List Char) :
    ∃ front' here', seek hit (front ++ here) = some (front', here') ∧
      front'.length ≤ front.length := by
  induction front with
  | nil =>
    refine ⟨[], here, ?_, Nat.le_refl _⟩
    cases here with
    | nil => rw [nil_append, seek, if_pos h]
    | cons c l => rw [nil_append, seek, if_pos h]
  | cons c front ih =>
    obtain ⟨front', here', hs, hle⟩ := ih
    rw [cons_append, seek, hs]
    split
    · exact ⟨[], _, rfl, Nat.zero_le _⟩
    · exact ⟨c :: front', here', rfl, by simpa using hle⟩

variable {front : List Char}

theorem lacks_of_seek (hneedle : needle ≠ "")
    (h : seek (startsWith needle) l = some (front, here)) : Lacks needle front := by
  rintro a b rfl
  have hl := seek_append h
  rw [append_assoc, append_assoc] at hl
  obtain ⟨front', here', hs, hle⟩ := seek_le (startsWith_append needle (b ++ here)) a
  rw [← hl, h] at hs
  have hfront := congrArg List.length (congrArg Prod.fst (Option.some.inj hs))
  have hpos := length_key_pos hneedle
  simp only [length_append, String.length_toList] at hfront
  omega

theorem seek_past {d : Char} (hd : d ∉ needle.toList) (h : Lacks needle front) (tail : List Char) :
    seek (startsWith needle) (front ++ d :: tail) =
      (seek (startsWith needle) (d :: tail)).map fun p => (front ++ p.1, p.2) := by
  induction front with
  | nil =>
    rw [nil_append]
    cases seek (startsWith needle) (d :: tail) <;> rfl
  | cons c front ih =>
    have hmiss : startsWith needle (c :: (front ++ d :: tail)) = false := by
      by_contra hne
      rw [Bool.not_eq_false] at hne
      obtain ⟨rest, hr⟩ := startsWith_iff.mp hne
      rw [← cons_append] at hr
      rcases append_eq_append_iff.mp hr with ⟨m, hm, hrest⟩ | ⟨m, hm, hrest⟩
      · cases m with
        | nil =>
          rw [append_nil] at hm
          exact h [] [] (by rw [← hm, append_nil]; rfl)
        | cons e m =>
          have he := (cons.inj hrest).1
          exact hd (by rw [hm, he]; simp)
      · exact h [] m (by rw [hm]; rfl)
    rw [cons_append, seek, if_neg (by simp [hmiss]), ih h.tail]
    cases seek (startsWith needle) (d :: tail) <;> rfl

theorem seek_skip {first : Char} {others : List Char} (hn : needle.toList = first :: others)
    (h : first ∉ l) (tail : List Char) :
    seek (startsWith needle) (l ++ tail) =
      (seek (startsWith needle) tail).map fun p => (l ++ p.1, p.2) := by
  induction l with
  | nil => cases hs : seek (startsWith needle) tail <;> simp [hs]
  | cons c l ih =>
    have hmiss : startsWith needle (c :: (l ++ tail)) = false := by
      by_contra hne
      rw [Bool.not_eq_false] at hne
      obtain ⟨rest, hr⟩ := startsWith_iff.mp hne
      rw [hn] at hr
      exact h (by rw [(cons.inj hr).1]; exact mem_cons_self)
    rw [cons_append, seek, if_neg (by simp [hmiss]),
      ih (fun hm => h (mem_cons_of_mem c hm))]
    cases seek (startsWith needle) tail <;> rfl

/-! ## PEM blocks -/

/-- The first block whose marker is at the start of the text, with what follows it. -/
def pemBlock (here : List Char) : Option (List Char × List Char) :=
  match seek (startsWith "-----END ") here with
  | none => none
  | some (body, fromEnd) =>
    match seek (startsWith "-----") (fromEnd.drop 9) with
    | none => none
    | some (label, fromClose) =>
      some (body ++ (fromEnd.take 9 ++ (label ++ fromClose.take 5)), fromClose.drop 5)

def pemEdit (here : List Char) : Option Edit :=
  if startsWith "-----BEGIN " here then
    match pemBlock here with
    | none => some ⟨here, here.length, false⟩
    | some (block, _) =>
      if contains "PRIVATE KEY" block then some ⟨"[REDACTED_PEM]".toList, block.length, true⟩
      else some ⟨"_____BEGIN ".toList, 11, false⟩
  else none

variable {rest : List Char}

theorem pemBlock_append {block : List Char} (h : pemBlock here = some (block, rest)) :
    here = block ++ rest := by
  unfold pemBlock at h
  split at h
  · cases h
  · rename_i body fromEnd hEnd
    split at h
    · cases h
    · rename_i label fromClose hClose
      cases h
      have h1 := seek_append hEnd
      have h2 := seek_append hClose
      simp only [append_assoc, take_append_drop]
      rw [← h2, take_append_drop, ← h1]

/-- A text in which the search for the next block goes on at its end. -/
def Passed (pre : List Char) : Prop := ∀ tail, seek (startsWith "-----BEGIN ") (pre ++ tail) =
  (seek (startsWith "-----BEGIN ") tail).map fun p => (pre ++ p.1, p.2)

theorem passed_nil : Passed [] := by
  intro tail
  rw [nil_append]
  cases seek (startsWith "-----BEGIN ") tail <;> rfl

variable {pre : List Char}

theorem Passed.append (h : Passed pre)
    (hs : seek (startsWith "-----BEGIN ") (front ++ here) = some (front, here)) {d : Char}
    {text : List Char} (hd : d ∉ "-----BEGIN ".toList) (htext : '-' ∉ d :: text) :
    Passed (pre ++ (front ++ d :: text)) := by
  intro tail
  rw [append_assoc, h, append_assoc, cons_append,
    seek_past hd (lacks_of_seek (by decide) hs), ← cons_append,
    seek_skip (show "-----BEGIN ".toList = '-' :: "----BEGIN ".toList from rfl) htext]
  cases seek (startsWith "-----BEGIN ") tail <;> simp

theorem length_block_pos {block : List Char} (h : pemBlock here = some (block, rest)) :
    0 < block.length := by
  unfold pemBlock at h
  split at h
  · cases h
  · rename_i body fromEnd hEnd
    split at h
    · cases h
    · rename_i label fromClose hClose
      cases h
      obtain ⟨more, rfl⟩ := startsWith_iff.mp (seek_hit hEnd)
      simp

theorem pemEdit_miss (l : List Char) (h : startsWith "-----BEGIN " l = false) :
    pemEdit l = none := if_neg (by simp [h])

theorem rewrite_pem_break (hs : seek (startsWith "-----BEGIN ") rest = some (front, here))
    (hb : pemBlock here = none) : rewrite pemEdit 0 rest = (rest, false) := by
  have hhit := seek_hit hs
  have hne : here ≠ [] := by
    rintro rfl
    cases hhit
  have hact : pemEdit here = some ⟨here, here.length, false⟩ := by
    rw [pemEdit, if_pos hhit, hb]
  rw [rewrite_of_seek pemEdit_miss hs, rewrite_some hact (length_pos_of_ne_nil hne) hne,
    drop_length]
  simp [seek_append hs]

theorem pemLoop_eq {fuel : Nat} (changed : Bool) (hpre : Passed pre) (hfuel : rest.length < fuel) :
    pemLoop fuel (pre ++ rest) changed =
      .ok (pre ++ (rewrite pemEdit 0 rest).1, changed || (rewrite pemEdit 0 rest).2) := by
  induction fuel generalizing pre rest changed with
  | zero => omega
  | succ fuel ih =>
    unfold pemLoop find
    rw [hpre rest]
    cases hs : seek (startsWith "-----BEGIN ") rest with
    | none =>
      rw [rewrite_of_seek_none pemEdit_miss hs]
      simp [pure, Except.pure]
    | some p =>
      obtain ⟨front, here⟩ := p
      have hrest := seek_append hs
      have hhit := seek_hit hs
      have hne : here ≠ [] := by
        rintro rfl
        cases hhit
      have hout : pre ++ rest = (pre ++ front) ++ here := by rw [hrest, append_assoc]
      have hslice : sliceFrom (pre ++ rest) (byteLen (pre ++ front)) = .ok here := by
        rw [hout, sliceFrom_append]
      -- either branch makes the edit, and goes on behind it
      have hstep : ∀ (e : Edit) (flag : Bool), pemEdit here = some e → 0 < e.consumed →
          Passed (pre ++ (front ++ e.text)) →
          pemLoop fuel (pre ++ (front ++ e.text) ++ here.drop e.consumed) flag =
            .ok (pre ++ (front ++ (e.text ++ (rewrite pemEdit 0 (here.drop e.consumed)).1)),
              flag || (rewrite pemEdit 0 (here.drop e.consumed)).2) := by
        intro e flag _ hpos hpassed
        have hlen : (here.drop e.consumed).length < fuel := by
          have := length_pos_of_ne_nil hne
          have hl := congrArg List.length hrest
          rw [length_append] at hl
          rw [length_drop]
          omega
        rw [ih flag hpassed hlen]
        simp only [append_assoc]
      simp only [Option.map_some, hslice, bind, Except.bind]
      cases hEnd : seek (startsWith "-----END ") here with
      | none =>
        have hb : pemBlock here = none := by rw [pemBlock, hEnd]
        rw [rewrite_pem_break hs hb]
        simp [pure, Except.pure]
      | some p =>
        obtain ⟨body, fromEnd⟩ := p
        have hhere := seek_append hEnd
        obtain ⟨more, rfl⟩ := startsWith_iff.mp (seek_hit hEnd)
        have h9 : byteLen "-----END ".toList = 9 := by decide
        have hafter : sliceFrom (pre ++ rest) (byteLen (pre ++ front) + byteLen body + 9) =
            .ok more := by
          have h := sliceFrom_append (pre ++ front ++ body ++ "-----END ".toList) more
          rw [byteLen_append, byteLen_append, h9, append_assoc, append_assoc,
            ← hhere, ← hout] at h
          exact h
        simp only [Option.map_some, hafter]
        cases hClose : seek (startsWith "-----") more with
        | none =>
          have hb : pemBlock here = none := by
            rw [pemBlock, hEnd]
            show (match seek (startsWith "-----") more with
              | none => none
              | some (label, fromClose) => some _) = none
            rw [hClose]
          rw [rewrite_pem_break hs hb]
          simp [pure, Except.pure]
        | some p =>
          obtain ⟨label, fromClose⟩ := p
          have hmore := seek_append hClose
          obtain ⟨tail, rfl⟩ := startsWith_iff.mp (seek_hit hClose)
          have h5 : byteLen "-----".toList = 5 := by decide
          generalize hblock : body ++ ("-----END ".toList ++ (label ++ "-----".toList)) = block
          have hb : pemBlock here = some (block, tail) := by
            rw [pemBlock, hEnd, ← hblock]
            show (match seek (startsWith "-----") more with
              | none => none
              | some (label, fromClose) => some _) = _
            rw [hClose]
            rfl
          have hsplit := pemBlock_append hb
          have hlast : min (byteLen (pre ++ front) + byteLen body + 9 + byteLen label + 5)
              (byteLen (pre ++ rest)) = byteLen (pre ++ front) + byteLen block := by
            rw [hout, hsplit, ← hblock]
            simp only [byteLen_append, h9, h5]
            omega
          have hslice2 : slice (pre ++ rest) (byteLen (pre ++ front))
              (byteLen (pre ++ front) + byteLen block) = .ok block := by
            rw [hout, hsplit, slice_append]
          simp only [Option.map_some, hlast, hslice2]
          rw [rewrite_of_seek pemEdit_miss hs]
          by_cases hkey : contains "PRIVATE KEY" block = true
          · have hact : pemEdit here = some ⟨"[REDACTED_PEM]".toList, block.length, true⟩ := by
              rw [pemEdit, if_pos hhit, hb]
              exact if_pos hkey
            have hpassed : Passed (pre ++ (front ++ "[REDACTED_PEM]".toList)) :=
              hpre.append (hrest ▸ hs) (by decide) (by decide)
            have hreplace := replaceRange_append (pre ++ front) block tail "[REDACTED_PEM]".toList
            have hnext := hstep _ true hact (length_block_pos hb) hpassed
            rw [← hsplit, ← hout] at hreplace
            rw [rewrite_some hact (length_block_pos hb) hne, if_pos hkey, hreplace]
            simp only
            have hdrop : here.drop block.length = tail := by rw [hsplit, drop_left]
            rw [hdrop] at hnext ⊢
            rw [append_assoc pre, hnext]
            simp
          · have hact : pemEdit here = some ⟨"_____BEGIN ".toList, 11, false⟩ := by
              rw [pemEdit, if_pos hhit, hb]
              exact if_neg hkey
            have hpassed : Passed (pre ++ (front ++ "_____BEGIN ".toList)) :=
              hpre.append (hrest ▸ hs) (by decide) (by decide)
            obtain ⟨behind, rfl⟩ := startsWith_iff.mp hhit
            have h11 : byteLen "-----BEGIN ".toList = 11 := by decide
            have hreplace := replaceRange_append (pre ++ front) "-----BEGIN ".toList behind
              "_____BEGIN ".toList
            have hnext := hstep _ changed hact (by decide) hpassed
            rw [← hout, h11] at hreplace
            rw [rewrite_some hact (by decide) hne, if_neg hkey, hreplace]
            simp only
            have hdrop : ("-----BEGIN ".toList ++ behind).drop 11 = behind := rfl
            simp only [hdrop] at hnext ⊢
            rw [append_assoc pre, hnext]
            simp

theorem redactPem_eq (out : List Char) :
    redactPem out = .ok (if (rewrite pemEdit 0 out).2 then
      replaceAll "_____BEGIN " "-----BEGIN " (rewrite pemEdit 0 out).1
      else (rewrite pemEdit 0 out).1, (rewrite pemEdit 0 out).2) := by
  have h := pemLoop_eq false passed_nil (Nat.lt_succ_self out.length)
  rw [nil_append, nil_append, Bool.false_or] at h
  unfold redactPem
  rw [h]
  rfl

/-! ## The label pass -/

def awsSecretLabel : String := "aws_secret_access_key"

/-- The label is at the start of the text, in any case. -/
def atLabel (here : List Char) : Bool := startsWith awsSecretLabel (here.map Char.toLower)

def labelValue (after : List Char) : List Char :=
  (after.dropWhile isAwsSecretGap).takeWhile isAwsSecretChar

/-- The first label with a value of thirty characters ends the pass; another one is passed over
with the character behind it. -/
def awsSecretEdit (here : List Char) : Option Edit :=
  if atLabel here then
    let after := here.drop 21
    if 30 ≤ (labelValue after).length then
      some ⟨here.take 21 ++ (after.takeWhile isAwsSecretGap ++ ("[REDACTED_AWS_SECRET]".toList ++
        (after.dropWhile isAwsSecretGap).dropWhile isAwsSecretChar)), here.length, true⟩
    else some ⟨here.take 22, 22, false⟩
  else none

/-- Behind every label that is passed over stands an ASCII character, or the text ends. -/
def labelsSafe : Nat → List Char → Bool
  | _, [] => true
  | skip + 1, _ :: l => labelsSafe skip l
  | 0, c :: l =>
    if atLabel (c :: l) then
      30 ≤ (labelValue (l.drop 20)).length || ((l.drop 20).head?.all ascii && labelsSafe 21 l)
    else labelsSafe 0 l

theorem labelsSafe_skip (skip : Nat) (l : List Char) :
    labelsSafe skip l = labelsSafe 0 (l.drop skip) := by
  induction skip generalizing l with
  | zero => rfl
  | succ skip ih =>
    cases l with
    | nil => rfl
    | cons c l => exact ih l

theorem labelsSafe_hit (h : atLabel here = true) :
    labelsSafe 0 here = (decide (30 ≤ (labelValue (here.drop 21)).length) ||
      ((here.drop 21).head?.all ascii && labelsSafe 0 (here.drop 22))) := by
  cases here with
  | nil => exact absurd h (by decide)
  | cons c l =>
    rw [labelsSafe, if_pos h, labelsSafe_skip 21]
    rfl

theorem labelsSafe_of_seek (h : seek atLabel l = some (front, here)) :
    labelsSafe 0 l = labelsSafe 0 here := by
  induction l generalizing front with
  | nil =>
    have hl := seek_append h
    obtain ⟨rfl, rfl⟩ : front = [] ∧ here = [] := by simpa using hl.symm
    rfl
  | cons c l ih =>
    unfold seek at h
    split at h
    · cases h; rfl
    · rename_i hc
      obtain ⟨⟨front', here'⟩, hl, hp⟩ := Option.map_eq_some_iff.mp h
      cases hp
      rw [labelsSafe, if_neg hc, ih hl]

theorem labelsSafe_of_seek_none (h : seek atLabel l = none) : labelsSafe 0 l = true := by
  induction l with
  | nil => rfl
  | cons c l ih =>
    unfold seek at h
    split at h
    · cases h
    · rename_i hc
      rw [labelsSafe, if_neg hc, ih (Option.map_eq_none_iff.mp h)]

theorem awsSecretEdit_miss (l : List Char) (h : atLabel l = false) : awsSecretEdit l = none :=
  if_neg (by simp [h])

theorem length_of_atLabel (h : atLabel here = true) : 21 ≤ here.length := by
  obtain ⟨rest, hr⟩ := startsWith_iff.mp h
  have hlen := congrArg List.length hr
  rw [length_map, length_append] at hlen
  have h21 : awsSecretLabel.toList.length = 21 := by decide
  omega

theorem byteLen_label (h : atLabel here = true) : byteLen (here.take 21) = 21 := by
  obtain ⟨rest, hr⟩ := startsWith_iff.mp h
  have hmark : (here.take 21).map Char.toLower = awsSecretLabel.toList := by
    rw [map_take, hr]
    rfl
  rw [← byteLen_map utf8Size_toLower, hmark]
  decide

theorem map_toLower_eq (l : List Char) : asciiLower l = l.map Char.toLower := rfl

/-- The label pass from byte `byteLen pre` on. -/
theorem awsSecretLoop_eq {fuel : Nat} {out : List Char} (hout : pre ++ rest = out)
    (hfuel : rest.length < fuel) :
    awsSecretLoop (asciiLower out) out fuel (byteLen pre) =
      if labelsSafe 0 rest then
        .ok (pre ++ (rewrite awsSecretEdit 0 rest).1, (rewrite awsSecretEdit 0 rest).2)
      else .error .panic := by
  induction fuel generalizing pre rest with
  | zero => omega
  | succ fuel ih =>
    have hslice : sliceFrom (asciiLower out) (byteLen pre) = .ok (rest.map Char.toLower) := by
      rw [← hout, map_toLower_eq, map_append, ← byteLen_map utf8Size_toLower pre,
        sliceFrom_append]
    have hfind : find "aws_secret_access_key" (rest.map Char.toLower) =
        (seek atLabel rest).map fun p => byteLen p.1 := find_map utf8Size_toLower awsSecretLabel rest
    unfold awsSecretLoop
    simp only [hslice, bind, Except.bind, hfind]
    cases hs : seek atLabel rest with
    | none =>
      rw [labelsSafe_of_seek_none hs, if_pos rfl, rewrite_of_seek_none awsSecretEdit_miss hs, hout]
      rfl
    | some p =>
      obtain ⟨front, here⟩ := p
      have hrest := seek_append hs
      have hhit : atLabel here = true := seek_hit hs
      have hlen := length_of_atLabel hhit
      have hne : here ≠ [] := by
        rintro rfl
        exact absurd hhit (by decide)
      have hbytes := byteLen_label hhit
      have hout' : out = (pre ++ front ++ here.take 21) ++ here.drop 21 := by
        rw [append_assoc, take_append_drop, append_assoc, ← hrest, hout]
      have hstart : byteLen pre + byteLen front + 21 = byteLen (pre ++ front ++ here.take 21) := by
        rw [byteLen_append, byteLen_append, hbytes]
      have hafter : sliceFrom out (byteLen pre + byteLen front + 21) = .ok (here.drop 21) := by
        rw [hstart, hout', sliceFrom_append]
      simp only [Option.map_some, hafter]
      rw [labelsSafe_of_seek hs, labelsSafe_hit hhit, rewrite_of_seek awsSecretEdit_miss hs]
      generalize hafterEq : here.drop 21 = after at hout' ⊢
      by_cases hvalue : 30 ≤ (labelValue after).length
      · have hact : awsSecretEdit here = some ⟨here.take 21 ++ (after.takeWhile isAwsSecretGap ++
            ("[REDACTED_AWS_SECRET]".toList ++
              (after.dropWhile isAwsSecretGap).dropWhile isAwsSecretChar)), here.length, true⟩ := by
          rw [awsSecretEdit, if_pos hhit]
          simp only [hafterEq]
          exact if_pos hvalue
        rw [rewrite_some hact (length_pos_of_ne_nil hne) hne, drop_length,
          decide_eq_true hvalue, Bool.true_or, if_pos rfl]
        have hgap := takeWhile_append_dropWhile (p := isAwsSecretGap) (l := after)
        have hbefore : byteLen after - byteLen (after.dropWhile isAwsSecretGap) =
            byteLen (after.takeWhile isAwsSecretGap) := by
          have h := congrArg byteLen hgap
          rw [byteLen_append] at h
          omega
        have hreplace := replaceRange_append
          (pre ++ front ++ here.take 21 ++ after.takeWhile isAwsSecretGap)
          ((after.dropWhile isAwsSecretGap).takeWhile isAwsSecretChar)
          ((after.dropWhile isAwsSecretGap).dropWhile isAwsSecretChar)
          "[REDACTED_AWS_SECRET]".toList
        rw [takeWhile_append_dropWhile, append_assoc (pre ++ front ++ here.take 21),
          hgap, ← hout', byteLen_append, ← hstart] at hreplace
        unfold labelValue at hvalue
        rw [if_pos hvalue, hbefore, take_run, hreplace]
        simp [pure, Except.pure]
      · have hact : awsSecretEdit here = some ⟨here.take 22, 22, false⟩ := by
          rw [awsSecretEdit, if_pos hhit]
          simp only [hafterEq]
          exact if_neg hvalue
        rw [rewrite_some hact (show 0 < 22 by decide) hne, decide_eq_false hvalue, Bool.false_or]
        have hvalue' : ¬ 30 ≤ ((after.dropWhile isAwsSecretGap).takeWhile isAwsSecretChar).length :=
          hvalue
        rw [if_neg hvalue']
        have hdrop : here.drop 22 = after.drop 1 := by
          rw [← hafterEq, drop_drop]
        have htake : here.take 22 = here.take 21 ++ after.take 1 := by
          rw [← hafterEq, ← take_add]
        have hlenOut : byteLen out = byteLen pre + byteLen front + 21 + byteLen after := by
          rw [hout', byteLen_append, ← hstart]
        cases after with
        | nil =>
          rw [if_pos (by rw [hlenOut]; simp), hdrop, htake]
          simp only [drop_nil, take_nil, append_nil, rewrite_nil, head?_nil,
            Option.all_none, labelsSafe, Bool.and_self, if_true, Bool.or_self, pure, Except.pure]
          rw [hout', append_nil, append_assoc]
        | cons c more =>
          have hpos := c.utf8Size_pos
          rw [if_neg (by rw [hlenOut, byteLen_cons]; omega), hdrop, htake]
          simp only [drop_succ_cons, drop_zero, take_succ_cons, take_zero,
            head?_cons, Option.all_some]
          by_cases hc : ascii c = true
          · have hone := utf8Size_ascii hc
            have hnext : (pre ++ (front ++ (here.take 21 ++ [c]))) ++ more = out := by
              rw [hout']
              simp
            have hplace : byteLen pre + byteLen front + 21 + 1 =
                byteLen (pre ++ (front ++ (here.take 21 ++ [c]))) := by
              simp only [byteLen_append, byteLen_cons, byteLen_nil, hbytes, hone]
              omega
            have hless : more.length < fuel := by
              have h1 := congrArg List.length hrest
              have h2 := congrArg List.length hafterEq
              rw [length_append] at h1
              rw [length_drop, length_cons] at h2
              omega
            rw [hplace, ih hnext hless, hc, Bool.true_and]
            simp
          · have hwide : 1 < c.toLower.utf8Size := by
              rw [utf8Size_toLower]
              by_contra hle
              have hsize : c.utf8Size = 1 := by omega
              rw [Char.utf8Size_eq_one_iff, UInt32.le_iff_toNat_le] at hsize
              have hn : c.toNat ≤ 127 := hsize
              exact hc (decide_eq_true (show c.toNat < 128 by omega))
            have hpanic := sliceFrom_inside (show 0 < 1 by decide) hwide
              (asciiLower (pre ++ front ++ here.take 21)) (asciiLower more)
            have hlower : asciiLower (pre ++ front ++ here.take 21) ++ c.toLower :: asciiLower more =
                asciiLower out := by
              rw [hout']
              simp [asciiLower]
            rw [hlower, map_toLower_eq (pre ++ front ++ here.take 21), byteLen_map utf8Size_toLower,
              ← hstart] at hpanic
            obtain ⟨fuel', rfl⟩ : ∃ n, fuel = n + 1 := by
              have h1 := congrArg List.length hrest
              rw [length_append] at h1
              exact ⟨fuel - 1, by omega⟩
            unfold awsSecretLoop
            rw [hpanic, Bool.eq_false_iff.mpr hc, Bool.false_and, if_neg (by simp)]
            rfl

theorem redactAwsSecretLabel_eq (out : List Char) :
    redactAwsSecretLabel out =
      if labelsSafe 0 out then .ok (rewrite awsSecretEdit 0 out) else .error .panic :=
  awsSecretLoop_eq (nil_append out) (Nat.lt_succ_self out.length)

/-! ## The whole pipeline -/

def labelInput (s : List Char) : Exec (List Char) := do
  let (out, _) ← redactPem s
  let (out, _) ← redactJwt out
  let (out, _) ← redactAwsAccessKey out
  return out

def Total (pass : Pass) : Prop := ∀ out, ∃ r, pass out = .ok r

theorem labelInput_ok (s : List Char) : ∃ t, labelInput s = .ok t := by
  unfold labelInput
  simp only [redactPem_eq, redactJwt_eq, redactAwsAccessKey_eq, bind, Except.bind, pure,
    Except.pure]
  exact ⟨_, rfl⟩

theorem runPasses_cons (p : String × Pass) (ps : List (String × Pass)) (out : List Char)
    (classes : List String) : runPasses (p :: ps) out classes = (do
      let (out, hit) ← p.2 out
      runPasses ps out (if hit then pushClass classes p.1 else classes)) := by
  unfold runPasses
  rw [foldlM_cons]
  simp only [bind, Except.bind]
  cases p.2 out <;> rfl

theorem runPasses_total {ps : List (String × Pass)} (h : ∀ p ∈ ps, Total p.2) (out : List Char)
    (classes : List String) : ∃ r, runPasses ps out classes = .ok r := by
  induction ps generalizing out classes with
  | nil => exact ⟨(out, classes), rfl⟩
  | cons p ps ih =>
    obtain ⟨r, hr⟩ := h p mem_cons_self out
    rw [runPasses_cons, hr]
    exact ih (fun q hq => h q (mem_cons_of_mem p hq)) r.1 _

theorem runPasses_label (later : List (String × Pass)) (h : ∀ p ∈ later, Total p.2)
    {s t : List Char} (ht : labelInput s = .ok t) (classes : List String) :
    if labelsSafe 0 t = true then
      ∃ r, runPasses (("pem", redactPem) :: ("jwt", redactJwt) ::
        ("aws_access_key", redactAwsAccessKey) :: ("aws_secret", redactAwsSecretLabel) :: later)
        s classes = .ok r
    else runPasses (("pem", redactPem) :: ("jwt", redactJwt) ::
        ("aws_access_key", redactAwsAccessKey) :: ("aws_secret", redactAwsSecretLabel) :: later)
        s classes = .error .panic := by
  unfold labelInput at ht
  simp only [redactPem_eq, redactJwt_eq, redactAwsAccessKey_eq, bind, Except.bind, pure,
    Except.pure] at ht
  simp only [runPasses_cons, redactPem_eq, redactJwt_eq, redactAwsAccessKey_eq, bind, Except.bind,
    Except.ok.inj ht, redactAwsSecretLabel_eq]
  by_cases hsafe : labelsSafe 0 t = true
  · simp only [if_pos hsafe]
    exact runPasses_total h _ _
  · simp only [if_neg hsafe]

theorem total_github : Total redactGithubTokens := fun out => ⟨_, redactGithubTokens_eq out⟩

theorem total_keys : Total redactPrefixedKeys := fun out => ⟨_, redactPrefixedKeys_eq out⟩

theorem total_bearer : Total redactBearer := fun out => ⟨_, redactBearer_eq out⟩

theorem total_url : Total redactUrlEmbeddedCredentials := fun out => ⟨_, redactUrl_eq out⟩

theorem total_entropy : Total redactHighEntropy := fun out => ⟨_, redactHighEntropy_eq out⟩

theorem isCredentialDominant_ok (alphanumeric : Char → Bool) {s out : List Char}
    (h : scrubSecretsLight s = .ok out) (classes : List String) :
    ∃ b, isCredentialDominant alphanumeric s classes = .ok b := by
  unfold isCredentialDominant
  rw [h]
  simp only [bind, Except.bind, pure, Except.pure]
  repeat' split
  all_goals exact ⟨_, rfl⟩

/-- A run stops at the label pass or completes; nothing else can go wrong. -/
theorem redactCandidate_cases (alphanumeric : Char → Bool) {s : String} {t : List Char}
    (ht : labelInput s.toList = .ok t) :
    if labelsSafe 0 t = true then ∃ r, redactCandidate alphanumeric s = .ok r
    else redactCandidate alphanumeric s = .error .panic := by
  have hfull := runPasses_label [("github_token", redactGithubTokens),
    ("api_key_prefix", redactPrefixedKeys), ("bearer", redactBearer),
    ("url_credentials", redactUrlEmbeddedCredentials), ("high_entropy", redactHighEntropy)]
    (by simp [total_github, total_keys, total_bearer, total_url, total_entropy]) ht []
  have hlight := runPasses_label [("github_token", redactGithubTokens),
    ("api_key_prefix", redactPrefixedKeys), ("bearer", redactBearer),
    ("high_entropy", redactHighEntropy)]
    (by simp [total_github, total_keys, total_bearer, total_entropy]) ht []
  by_cases hsafe : labelsSafe 0 t = true
  · rw [if_pos hsafe] at hfull hlight ⊢
    obtain ⟨r, hr⟩ := hfull
    obtain ⟨r', hr'⟩ := hlight
    have hscrub : scrubSecretsLight s.toList = .ok r'.1 := by
      unfold scrubSecretsLight lightPasses
      rw [hr']
      rfl
    obtain ⟨b, hb⟩ := isCredentialDominant_ok alphanumeric hscrub r.2
    unfold redactCandidate passes
    rw [hr]
    simp only [bind, Except.bind, hb]
    exact ⟨_, rfl⟩
  · rw [if_neg hsafe] at hfull ⊢
    unfold redactCandidate passes
    rw [hfull]
    rfl

/-- Exactly the texts that reach the label pass safe are redacted, and no loop runs for ever. -/
theorem redactCandidate_completes (alphanumeric : Char → Bool) (s : String) :
    ∃ t, labelInput s.toList = .ok t ∧
      ((∃ r, redactCandidate alphanumeric s = .ok r) ↔ labelsSafe 0 t = true) ∧
      redactCandidate alphanumeric s ≠ .error .outOfFuel := by
  obtain ⟨t, ht⟩ := labelInput_ok s.toList
  have h := redactCandidate_cases alphanumeric ht
  refine ⟨t, ht, ?_, ?_⟩
  · by_cases hsafe : labelsSafe 0 t = true
    · rw [if_pos hsafe] at h
      exact ⟨fun _ => hsafe, fun _ => h⟩
    · rw [if_neg hsafe] at h
      refine ⟨fun ⟨r, hr⟩ => ?_, fun hs => absurd hs hsafe⟩
      rw [h] at hr
      cases hr
  · intro hfuel
    by_cases hsafe : labelsSafe 0 t = true
    · rw [if_pos hsafe] at h
      obtain ⟨r, hr⟩ := h
      rw [hr] at hfuel
      cases hfuel
    · rw [if_neg hsafe] at h
      rw [h] at hfuel
      cases hfuel

/-- A label with an accented letter behind it: the search goes on inside the letter. -/
theorem redactCandidate_panics :
    redactCandidate Char.isAlphanum "aws_secret_access_key\u00e9" = .error .panic := by
  decide +kernel

end ContextDesk.Redact
