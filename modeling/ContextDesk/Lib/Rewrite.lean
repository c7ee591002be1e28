import ContextDesk.Lib.ByteIndex

/-!
# Rewriting a text from left to right

`rewrite act` walks a text once: where `act` answers an edit, its text takes the place of the
characters it consumes, and every other character stays. `rewrite_of_seek` jumps to the first
place where `act` answers, `scan_eq_rewrite` shows that a `scan` of the text by byte indices is
such a rewriting when its body is the edit at the place found (`Follows`), and
`replaceRanges_eq_rewrite` the same for a list of byte ranges replaced from the last one back.
-/

namespace ContextDesk.Lib.Rewrite

open Lib.Text Lib.Str Lib.ByteIndex List

/-- What happens at one place: `text` takes the place of the next `consumed` characters. -/
structure Edit where
  text : List Char
  consumed : Nat
  changed : Bool
  deriving DecidableEq

/-- Rewrite a text, after `skip` characters that an edit has consumed. -/
def rewrite (act : List Char → Option Edit) : Nat → List Char → List Char × Bool
  | _, [] => ([], false)
  | skip + 1, _ :: l => rewrite act skip l
  | 0, c :: l =>
    match act (c :: l) with
    | none => (c :: (rewrite act 0 l).1, (rewrite act 0 l).2)
    | some e =>
      (e.text ++ (rewrite act (e.consumed - 1) l).1,
        e.changed || (rewrite act (e.consumed - 1) l).2)

/-- `str::replace`. -/
def replaceAll (old new : String) (l : List Char) : List Char :=
  (rewrite (fun l => if startsWith old l then some ⟨new.toList, old.length, true⟩ else none) 0 l).1

variable {act : List Char → Option Edit}

@[simp] theorem rewrite_nil (skip : Nat) : rewrite act skip [] = ([], false) := by
  cases skip <;> rfl

theorem rewrite_skip (skip : Nat) (l : List Char) :
    rewrite act skip l = rewrite act 0 (l.drop skip) := by
  induction skip generalizing l with
  | zero => rfl
  | succ skip ih =>
    cases l with
    | nil => simp
    | cons c l => exact ih l

variable {l : List Char}

theorem rewrite_none {c : Char} (h : act (c :: l) = none) :
    rewrite act 0 (c :: l) = (c :: (rewrite act 0 l).1, (rewrite act 0 l).2) := by
  rw [rewrite, h]

variable {here : List Char}

theorem rewrite_some {e : Edit} (h : act here = some e) (hpos : 0 < e.consumed) (hne : here ≠ []) :
    rewrite act 0 here = (e.text ++ (rewrite act 0 (here.drop e.consumed)).1,
      e.changed || (rewrite act 0 (here.drop e.consumed)).2) := by
  obtain ⟨c, l, rfl⟩ := exists_cons_of_ne_nil hne
  obtain ⟨n, hn⟩ : ∃ n, e.consumed = n + 1 := ⟨e.consumed - 1, by omega⟩
  rw [rewrite, h]
  simp only [hn, Nat.add_sub_cancel, drop_succ_cons, rewrite_skip n l]

/-- Nothing happens before the first place where `hit` holds. -/
theorem rewrite_of_seek {hit : List Char → Bool} (hact : ∀ l, hit l = false → act l = none)
    {front : List Char} (h : seek hit l = some (front, here)) :
    rewrite act 0 l = (front ++ (rewrite act 0 here).1, (rewrite act 0 here).2) := by
  induction l generalizing front with
  | nil =>
    have hl := seek_append h
    obtain ⟨rfl, rfl⟩ : front = [] ∧ here = [] := by simpa using hl.symm
    rfl
  | cons c l ih =>
    unfold seek at h
    split at h
    · cases h; rfl
    · rename_i hc
      obtain ⟨⟨front', here'⟩, hl, hp⟩ := Option.map_eq_some_iff.mp h
      cases hp
      rw [rewrite_none (hact _ (by simpa using hc)), ih hl]
      rfl

theorem rewrite_of_seek_none {hit : List Char → Bool} (hact : ∀ l, hit l = false → act l = none)
    (h : seek hit l = none) : rewrite act 0 l = (l, false) := by
  induction l with
  | nil => simp
  | cons c l ih =>
    unfold seek at h
    split at h
    · cases h
    · rename_i hc
      rw [rewrite_none (hact _ (by simpa using hc)), ih (Option.map_eq_none_iff.mp h)]

/-- An edit that reports no change puts back what it consumes. -/
def Honest (act : List Char → Option Edit) : Prop :=
  ∀ here e, act here = some e → e.changed = false → 0 < e.consumed ∧ e.text = here.take e.consumed

/-- A rewriting that reports no change leaves the text. -/
theorem rewrite_unchanged (hact : Honest act) (h : (rewrite act 0 l).2 = false) :
    (rewrite act 0 l).1 = l := by
  induction hlen : l.length using Nat.strong_induction_on generalizing l with
  | _ n ih =>
    cases l with
    | nil => simp
    | cons c l =>
      rw [length_cons] at hlen
      cases ha : act (c :: l) with
      | none =>
        rw [rewrite_none ha] at h ⊢
        exact congrArg (c :: ·) (ih l.length (by omega) h rfl)
      | some e =>
        cases hc : e.changed with
        | true =>
          rw [rewrite, ha] at h
          simp [hc] at h
        | false =>
          obtain ⟨hpos, htext⟩ := hact _ e ha hc
          rw [rewrite_some ha hpos (by simp), hc, Bool.false_or] at h
          rw [rewrite_some ha hpos (by simp), htext,
            ih _ (by rw [length_drop, length_cons]; omega) h rfl, take_append_drop]

/-! ## Scanning is rewriting -/

/-- The body of a scan makes the edit that `act` answers at the place found. -/
structure Follows (f : Char → Char) (needle : String) (act : List Char → Option Edit)
    (body : List Char → Nat → Exec (List Char × Nat × Bool)) : Prop where
  miss : ∀ l, startsWith needle (l.map f) = false → act l = none
  hit : ∀ pre here, startsWith needle (here.map f) = true → ∃ e, act here = some e ∧
    0 < e.consumed ∧ body (pre ++ here) (byteLen pre) =
      .ok (pre ++ (e.text ++ here.drop e.consumed), byteLen (pre ++ e.text), e.changed)

theorem byteLen_map {f : Char → Char} (hf : ∀ c, (f c).utf8Size = c.utf8Size) (l : List Char) :
    byteLen (l.map f) = byteLen l := by
  induction l with
  | nil => rfl
  | cons c l ih => rw [map_cons, byteLen_cons, byteLen_cons, hf, ih]

theorem find_map {f : Char → Char} (hf : ∀ c, (f c).utf8Size = c.utf8Size) (needle : String)
    (l : List Char) : find needle (l.map f) =
      (seek (fun m => startsWith needle (m.map f)) l).map fun p => byteLen p.1 := by
  unfold find
  rw [seek_map]
  cases seek (fun m => startsWith needle (m.map f)) l with
  | none => rfl
  | some p => exact congrArg some (byteLen_map hf p.1)

/-- A scan whose text is `pre ++ rest`, and whose place is the start of `rest`. -/
theorem scan_eq_rewrite {f : Char → Char} (hf : ∀ c, (f c).utf8Size = c.utf8Size)
    {needle : String} (hneedle : needle ≠ "")
    {body : List Char → Nat → Exec (List Char × Nat × Bool)} (h : Follows f needle act body)
    {fuel : Nat} (pre rest : List Char) (changed : Bool) (hfuel : rest.length < fuel) :
    scan (List.map f) needle body fuel (byteLen pre) (pre ++ rest) changed =
      .ok (pre ++ (rewrite act 0 rest).1, changed || (rewrite act 0 rest).2) := by
  induction fuel generalizing pre rest changed with
  | zero => omega
  | succ fuel ih =>
    have hslice : sliceFrom ((pre ++ rest).map f) (byteLen pre) = .ok (rest.map f) := by
      rw [map_append, ← byteLen_map hf pre, sliceFrom_append]
    unfold scan
    simp only [hslice, bind, Except.bind, find_map hf]
    cases hs : seek (fun m => startsWith needle (m.map f)) rest with
    | none =>
      rw [rewrite_of_seek_none h.miss hs]
      simp [pure, Except.pure]
    | some p =>
      obtain ⟨front, here⟩ := p
      have hrest := seek_append hs
      have hhit : startsWith needle (here.map f) = true := by
        have hsome := seek_hit hs
        exact hsome
      obtain ⟨e, he, hpos, hbody⟩ := h.hit (pre ++ front) here hhit
      have hne : here ≠ [] := by
        rintro rfl
        unfold startsWith at hhit
        cases hn : needle.toList with
        | nil => exact hneedle (String.toList_injective hn)
        | cons c cs => rw [hn] at hhit; cases hhit
      have hlen : (here.drop e.consumed).length < fuel := by
        have := length_pos_of_ne_nil hne
        have hl := congrArg List.length hrest
        rw [length_append] at hl
        rw [length_drop]
        omega
      rw [rewrite_of_seek h.miss hs, rewrite_some he hpos hne]
      simp only [Option.map_some]
      rw [hrest, ← byteLen_append, ← append_assoc, hbody]
      simp only
      rw [← append_assoc, ih _ _ _ hlen]
      simp only [append_assoc, Bool.or_assoc]

/-! ## Replacing ranges is rewriting -/

/-- An edit either puts `new` in place of what it consumes, or leaves it. -/
structure Places (new : List Char) (act : List Char → Option Edit) : Prop where
  pos : ∀ here e, act here = some e → 0 < e.consumed
  le : ∀ here e, act here = some e → e.consumed ≤ here.length
  text : ∀ here e, act here = some e → e.text = if e.changed then new else here.take e.consumed

variable {new : List Char}

theorem Places.honest (h : Places new act) : Honest act := by
  intro here e he hc
  refine ⟨h.pos here e he, ?_⟩
  rw [h.text here e he, hc]
  rfl

/-- The byte ranges of the edits that change the text, from byte `i` on. -/
def ranges (act : List Char → Option Edit) : Nat → Nat → List Char → List (Nat × Nat)
  | _, _, [] => []
  | i, skip + 1, c :: l => ranges act (i + c.utf8Size) skip l
  | i, 0, c :: l =>
    match act (c :: l) with
    | none => ranges act (i + c.utf8Size) 0 l
    | some e =>
      if e.changed then
        (i, i + byteLen ((c :: l).take e.consumed)) ::
          ranges act (i + c.utf8Size) (e.consumed - 1) l
      else ranges act (i + c.utf8Size) (e.consumed - 1) l

variable {i : Nat}

theorem ranges_skip {skip : Nat} (h : skip ≤ l.length) :
    ranges act i skip l = ranges act (i + byteLen (l.take skip)) 0 (l.drop skip) := by
  induction skip generalizing i l with
  | zero => rfl
  | succ skip ih =>
    cases l with
    | nil => simp at h
    | cons c l =>
      rw [ranges, ih (by simpa using h), take_succ_cons, byteLen_cons, drop_succ_cons,
        Nat.add_assoc]

theorem ranges_none {c : Char} (h : act (c :: l) = none) :
    ranges act i 0 (c :: l) = ranges act (i + c.utf8Size) 0 l := by
  rw [ranges, h]

theorem ranges_some (hp : Places new act) {e : Edit} (h : act here = some e) (hne : here ≠ []) :
    ranges act i 0 here =
      (if e.changed then [(i, i + byteLen (here.take e.consumed))] else []) ++
        ranges act (i + byteLen (here.take e.consumed)) 0 (here.drop e.consumed) := by
  obtain ⟨c, l, rfl⟩ := exists_cons_of_ne_nil hne
  have hpos := hp.pos _ e h
  have hle := hp.le _ e h
  obtain ⟨n, hn⟩ : ∃ n, e.consumed = n + 1 := ⟨e.consumed - 1, by omega⟩
  rw [hn, length_cons] at hle
  rw [ranges, h]
  simp only [hn, Nat.add_sub_cancel, drop_succ_cons, take_succ_cons, byteLen_cons]
  rw [ranges_skip (show n ≤ l.length by omega), Nat.add_assoc]
  split <;> rfl

/-- Where no edit is made there are no ranges. -/
theorem ranges_nil (h : ∀ here, here <:+ l → act here = none) : ranges act i 0 l = [] := by
  induction l generalizing i with
  | nil => rfl
  | cons c l ih =>
    rw [ranges_none (h _ (suffix_refl _))]
    exact ih fun here hs => h here (hs.trans (suffix_cons c l))

/-- The ranges of a text from byte `byteLen pre` on, replaced from the last one back. -/
theorem replaceRanges_eq_rewrite (hp : Places new act) (pre l : List Char) :
    replaceRanges new (ranges act (byteLen pre) 0 l) (pre ++ l) =
      .ok (pre ++ (rewrite act 0 l).1) := by
  induction hlen : l.length using Nat.strong_induction_on generalizing pre l with
  | _ n ih =>
    cases l with
    | nil => simp [ranges, replaceRanges]
    | cons c l =>
      cases ha : act (c :: l) with
      | none =>
        have h := ih l.length (by simp at hlen; omega) (pre ++ [c]) l rfl
        rw [rewrite_none ha, ranges_none ha]
        simpa using h
      | some e =>
        have hpos := hp.pos _ e ha
        have hle := hp.le _ e ha
        have htake := take_append_drop e.consumed (c :: l)
        have hdrop : ((c :: l).drop e.consumed).length < n := by
          rw [length_drop]
          omega
        have h := ih _ hdrop (pre ++ (c :: l).take e.consumed) ((c :: l).drop e.consumed) rfl
        rw [append_assoc, htake, byteLen_append] at h
        rw [rewrite_some ha hpos (by simp), ranges_some hp ha (by simp), hp.text _ e ha]
        cases e.changed with
        | false =>
          simp only [Bool.false_eq_true, if_false, nil_append]
          rw [h, append_assoc]
        | true =>
          simp only [if_true, cons_append, nil_append, replaceRanges, h, bind,
            Except.bind]
          rw [append_assoc, replaceRange_append, append_assoc]

theorem rewrite_changed (hp : Places new act) (i : Nat) (l : List Char) :
    (rewrite act 0 l).2 = !(ranges act i 0 l).isEmpty := by
  induction hlen : l.length using Nat.strong_induction_on generalizing i l with
  | _ n ih =>
    cases l with
    | nil => simp [ranges]
    | cons c l =>
      cases ha : act (c :: l) with
      | none =>
        rw [rewrite_none ha, ranges_none ha]
        exact ih l.length (by simp at hlen; omega) _ l rfl
      | some e =>
        have hpos := hp.pos _ e ha
        have hdrop : ((c :: l).drop e.consumed).length < n := by
          rw [length_drop]
          simp at hlen
          simp
          omega
        rw [rewrite_some ha hpos (by simp), ranges_some hp ha (by simp),
          ih _ hdrop (i + byteLen ((c :: l).take e.consumed)) _ rfl]
        cases e.changed <;> simp

/-- A loop over the bytes of `out` that collects ranges. It ends `tail` bytes before the end,
goes past a byte inside a character, and does at an ASCII character what `act` answers. -/
structure Walks (act : List Char → Option Edit) (out : List Char) (tail : Nat)
    (loop : Nat → Nat → List (Nat × Nat) → Exec (List (Nat × Nat))) : Prop where
  stop : ∀ fuel i acc, byteLen out ≤ i + tail → loop (fuel + 1) i acc = .ok acc
  short : ∀ l, byteLen l ≤ tail → act l = none
  wide : ∀ fuel i acc b, i + tail < byteLen out → (bytes out)[i]? = some b →
    (∀ p, onByte p b = false) → loop (fuel + 1) i acc = loop fuel (i + 1) acc
  ascii : ∀ c l, act (c :: l) ≠ none → ascii c = true
  miss : ∀ fuel pre c l acc, pre ++ c :: l = out → ByteIndex.ascii c = true →
    byteLen pre + tail < byteLen out → act (c :: l) = none →
    loop (fuel + 1) (byteLen pre) acc = loop fuel (byteLen pre + 1) acc
  hit : ∀ fuel pre here acc e, pre ++ here = out → here ≠ [] →
    byteLen pre + tail < byteLen out → act here = some e →
    loop (fuel + 1) (byteLen pre) acc = loop fuel (byteLen pre + byteLen (here.take e.consumed))
      (if e.changed then
        acc ++ [(byteLen pre, byteLen pre + byteLen (here.take e.consumed))] else acc)

theorem byteLen_suffix (h : here <:+ l) : byteLen here ≤ byteLen l := by
  obtain ⟨front, rfl⟩ := h
  rw [byteLen_append]
  omega

/-- From byte `i` on, where `inside` are the bytes that are left of the character before `l`. -/
theorem loop_eq_ranges {out : List Char} (hp : Places new act) {tail : Nat}
    {loop : Nat → Nat → List (Nat × Nat) → Exec (List (Nat × Nat))} (h : Walks act out tail loop)
    (fuel : Nat) (inside : List UInt8) {pre : List Char} (acc : List (Nat × Nat))
    (hout : pre ++ l = out) (hi : i + inside.length = byteLen pre)
    (hdrop : (bytes out).drop i = inside ++ bytes l)
    (hinside : ∀ b ∈ inside, ∀ p, onByte p b = false) (hfuel : inside.length + byteLen l < fuel) :
    loop fuel i acc = .ok (acc ++ ranges act (byteLen pre) 0 l) := by
  induction fuel generalizing i inside pre l acc with
  | zero => omega
  | succ fuel ih =>
    have hlen : byteLen out = byteLen pre + byteLen l := by rw [← hout, byteLen_append]
    by_cases hend : byteLen out ≤ i + tail
    · have hnil : ranges act (byteLen pre) 0 l = [] :=
        ranges_nil fun here hs => h.short here (by have := byteLen_suffix hs; omega)
      rw [h.stop fuel i acc hend, hnil, append_nil]
    · rw [Nat.not_le] at hend
      cases inside with
      | cons b inside =>
        have hget : (bytes out)[i]? = some b := by
          have hhead := congrArg List.head? hdrop
          rw [head?_drop] at hhead
          exact hhead
        have hnext : (bytes out).drop (i + 1) = inside ++ bytes l := by
          rw [← drop_drop, hdrop]
          rfl
        rw [length_cons] at hi hfuel
        rw [h.wide fuel i acc b hend hget (hinside b mem_cons_self)]
        exact ih inside acc hout (by omega) hnext (fun d hd => hinside d (mem_cons_of_mem b hd))
          (by omega)
      | nil =>
        rw [nil_append] at hdrop
        rw [length_nil] at hi hfuel
        obtain rfl : i = byteLen pre := by omega
        cases l with
        | nil => rw [byteLen_nil] at hlen; omega
        | cons c l =>
          cases ha : act (c :: l) with
          | some e =>
            have hpos := hp.pos _ e ha
            have htake := take_append_drop e.consumed (c :: l)
            have hrest : (pre ++ (c :: l).take e.consumed) ++ (c :: l).drop e.consumed = out := by
              rw [append_assoc, htake, hout]
            have hconsumed : 0 < byteLen ((c :: l).take e.consumed) := by
              have hn := length_le_byteLen ((c :: l).take e.consumed)
              rw [length_take, length_cons] at hn
              omega
            have hsum := congrArg byteLen htake
            rw [byteLen_append] at hsum
            have hnext := drop_bytes (pre ++ (c :: l).take e.consumed) ((c :: l).drop e.consumed)
            rw [hrest, byteLen_append] at hnext
            rw [h.hit fuel pre (c :: l) acc e hout (by simp) hend ha,
              ih [] _ hrest (by rw [byteLen_append]; rfl) hnext (by simp) (by simp; omega),
              ranges_some hp ha (by simp), byteLen_append]
            cases e.changed <;> simp
          | none =>
            have hrest : (pre ++ [c]) ++ l = out := by rw [append_assoc]; exact hout
            rw [ranges_none ha]
            have hpre : byteLen (pre ++ [c]) = byteLen pre + c.utf8Size := by simp
            rw [byteLen_cons] at hfuel
            by_cases hc : ByteIndex.ascii c = true
            · have hone := utf8Size_ascii hc
              have hnext := drop_bytes (pre ++ [c]) l
              rw [hrest, hpre, hone] at hnext
              rw [h.miss fuel pre c l acc hout hc hend ha,
                ih [] acc hrest (by rw [hpre, hone]; rfl) hnext (by simp) (by simp; omega), hpre]
            · have hwide := encode_wide (by simpa using hc)
              rw [bytes_cons] at hdrop
              have hsize := String.length_utf8EncodeChar c
              cases he : String.utf8EncodeChar c with
              | nil =>
                have := c.utf8Size_pos
                rw [he, length_nil] at hsize
                omega
              | cons b inside =>
                rw [he] at hdrop hwide hsize
                rw [length_cons] at hsize
                have hget : (bytes out)[byteLen pre]? = some b := by
                  have hhead := congrArg List.head? hdrop
                  rw [head?_drop] at hhead
                  exact hhead
                have hnext : (bytes out).drop (byteLen pre + 1) = inside ++ bytes l := by
                  rw [← drop_drop, hdrop]
                  rfl
                rw [h.wide fuel _ acc b hend hget (hwide b mem_cons_self),
                  ih inside acc hrest (by rw [hpre]; omega) hnext
                    (fun d hd => hwide d (mem_cons_of_mem b hd)) (by omega), hpre]

/-- The ranges of a whole text, replaced from the last one back. -/
theorem replaceRanges_of_walks {out : List Char} (hp : Places new act) {tail : Nat}
    {loop : Nat → Nat → List (Nat × Nat) → Exec (List (Nat × Nat))} (h : Walks act out tail loop) :
    (do
      let found ← loop ((bytes out).length + 1) 0 []
      return (← replaceRanges new found out, !found.isEmpty)) = .ok (rewrite act 0 out) := by
  have hloop := loop_eq_ranges hp h (byteLen out + 1) [] [] (nil_append out) rfl rfl
    (by simp) (by simp)
  have hreplace := replaceRanges_eq_rewrite hp [] out
  rw [byteLen_nil, nil_append, nil_append] at hreplace
  rw [length_bytes, hloop]
  simp only [bind, Except.bind, nil_append, byteLen_nil, hreplace, pure, Except.pure,
    ← rewrite_changed hp]

end ContextDesk.Lib.Rewrite
