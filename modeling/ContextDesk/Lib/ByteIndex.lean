import ContextDesk.Lib.Str

/-!
# Byte indices into a text

The source indexes its strings by byte, and a slice that starts or ends inside a character stops
the program. `cut i l` splits a text at byte `i`, or nothing when no character starts there;
`sliceFrom`, `slice` and `replaceRange` stop with `Stop.panic` then. `find` is the byte index of
the first occurrence, and `scan` the loop that finds a marker, acts on it and searches on. A loop
that runs longer than its fuel stops with `Stop.outOfFuel`, which a total loop never does.
-/

namespace ContextDesk.Lib.ByteIndex

open Lib.Str Lib.Text List

inductive Stop where
  | panic
  | outOfFuel
  deriving DecidableEq

abbrev Exec (α : Type) := Except Stop α

/-! ## Cutting a text at a byte -/

def byteLen (l : List Char) : Nat := (l.map Char.utf8Size).sum

@[simp] theorem byteLen_nil : byteLen [] = 0 := rfl

@[simp] theorem byteLen_cons (c : Char) (l : List Char) :
    byteLen (c :: l) = c.utf8Size + byteLen l := rfl

@[simp] theorem byteLen_append (a b : List Char) : byteLen (a ++ b) = byteLen a + byteLen b := by
  simp [byteLen]

theorem length_le_byteLen (l : List Char) : l.length ≤ byteLen l := by
  induction l with
  | nil => simp
  | cons c l ih =>
    have := c.utf8Size_pos
    rw [length_cons, byteLen_cons]
    omega

/-- The text before byte `i`, and the text from it on. -/
def cut (i : Nat) : List Char → Option (List Char × List Char)
  | [] => if i = 0 then some ([], []) else none
  | c :: l =>
    if i = 0 then some ([], c :: l)
    else if c.utf8Size ≤ i then (cut (i - c.utf8Size) l).map fun p => (c :: p.1, p.2)
    else none

theorem cut_zero (l : List Char) : cut 0 l = some ([], l) := by
  cases l <;> simp [cut]

theorem cut_append_add (a b : List Char) (k : Nat) :
    cut (byteLen a + k) (a ++ b) = (cut k b).map fun p => (a ++ p.1, p.2) := by
  induction a with
  | nil => simp
  | cons c a ih =>
    have := c.utf8Size_pos
    rw [cons_append, cut, byteLen_cons, if_neg (by omega), if_pos (by omega),
      show c.utf8Size + byteLen a + k - c.utf8Size = byteLen a + k by omega, ih]
    cases cut k b <;> rfl

theorem cut_append (a b : List Char) : cut (byteLen a) (a ++ b) = some (a, b) := by
  have h := cut_append_add a b 0
  rw [cut_zero] at h
  simpa using h

variable {c : Char}

/-- Inside a character there is no boundary. -/
theorem cut_inside {k : Nat} (hk : 0 < k) (hc : k < c.utf8Size) (a b : List Char) :
    cut (byteLen a + k) (a ++ c :: b) = none := by
  rw [cut_append_add, cut, if_neg (by omega), if_neg (by omega)]
  rfl

/-- A boundary, or a panic. -/
def boundary (i : Nat) (l : List Char) : Exec (List Char × List Char) :=
  match cut i l with
  | some p => .ok p
  | none => .error .panic

/-- `&l[i..]`. -/
def sliceFrom (l : List Char) (i : Nat) : Exec (List Char) := do
  let (_, back) ← boundary i l
  return back

/-- `&l[i..j]`. -/
def slice (l : List Char) (i j : Nat) : Exec (List Char) := do
  let (_, back) ← boundary i l
  if j < i then throw .panic
  let (middle, _) ← boundary (j - i) back
  return middle

/-- `String::replace_range(i..j, new)`. -/
def replaceRange (l : List Char) (i j : Nat) (new : List Char) : Exec (List Char) := do
  let (front, back) ← boundary i l
  if j < i then throw .panic
  let (_, behind) ← boundary (j - i) back
  return front ++ new ++ behind

theorem sliceFrom_append (a b : List Char) : sliceFrom (a ++ b) (byteLen a) = .ok b := by
  simp [sliceFrom, boundary, cut_append, bind, Except.bind, pure, Except.pure]

theorem sliceFrom_inside {k : Nat} (hk : 0 < k) (hc : k < c.utf8Size) (a b : List Char) :
    sliceFrom (a ++ c :: b) (byteLen a + k) = .error .panic := by
  simp [sliceFrom, boundary, cut_inside hk hc, bind, Except.bind]

theorem slice_append (a m b : List Char) :
    slice (a ++ (m ++ b)) (byteLen a) (byteLen a + byteLen m) = .ok m := by
  simp [slice, boundary, cut_append, bind, Except.bind, pure, Except.pure]

theorem replaceRange_append (a m b new : List Char) :
    replaceRange (a ++ (m ++ b)) (byteLen a) (byteLen a + byteLen m) new =
      .ok (a ++ new ++ b) := by
  simp [replaceRange, boundary, cut_append, bind, Except.bind, pure, Except.pure]

/-! ## ASCII tests on bytes -/

/-- A test of an ASCII character, on a byte. -/
def onByte (p : Char → Bool) (b : UInt8) : Bool := b.toNat < 128 && p (Char.ofNat b.toNat)

def ascii (c : Char) : Bool := c.toNat < 128

theorem utf8Size_ascii (h : ascii c = true) : c.utf8Size = 1 := by
  unfold ascii at h
  rw [Char.utf8Size_eq_one_iff, UInt32.le_iff_toNat_le]
  have hc : c.val.toNat < 128 := of_decide_eq_true h
  show c.val.toNat ≤ 127
  omega

/-- An ASCII character is one byte, and its tests are those of the byte. -/
theorem encode_ascii (h : ascii c = true) :
    ∃ b, String.utf8EncodeChar c = [b] ∧ ∀ p, onByte p b = p c := by
  unfold ascii at h
  have hc : c.val.toNat < 128 := of_decide_eq_true h
  refine ⟨UInt8.ofNat c.val.toNat, ?_, fun p => ?_⟩
  · unfold String.utf8EncodeChar
    exact if_pos (by omega)
  · have hb : (UInt8.ofNat c.val.toNat).toNat = c.toNat := by
      rw [UInt8.toNat_ofNat']
      show c.val.toNat % 256 = c.val.toNat
      omega
    unfold onByte
    rw [hb, Char.ofNat_toNat]
    simp only [h, Bool.true_and]

theorem toNat_ofNat_wide {n base : Nat} (hbase : 128 ≤ base) (hn : n + base < 256) :
    128 ≤ (UInt8.ofNat (n + base)).toNat := by
  rw [UInt8.toNat_ofNat', Nat.mod_eq_of_lt hn]
  omega

/-- No byte of a longer character passes a test. -/
theorem encode_wide (h : ascii c = false) :
    ∀ b ∈ String.utf8EncodeChar c, ∀ p, onByte p b = false := by
  unfold ascii at h
  have hc : 128 ≤ c.val.toNat := by
    have := of_decide_eq_false h
    show 128 ≤ c.toNat
    omega
  have hwide : ∀ b ∈ String.utf8EncodeChar c, 128 ≤ b.toNat := by
    unfold String.utf8EncodeChar
    intro b hb
    simp only at hb
    rw [if_neg (by omega)] at hb
    have h6 := Nat.mod_lt c.val.toNat (show 0x40 > 0 by decide)
    have h12 := Nat.mod_lt (c.val.toNat / 64) (show 0x40 > 0 by decide)
    have h18 := Nat.mod_lt (c.val.toNat / 4096) (show 0x40 > 0 by decide)
    split at hb
    · have h5 := Nat.mod_lt (c.val.toNat / 64) (show 0x20 > 0 by decide)
      simp only [mem_cons, not_mem_nil, or_false] at hb
      rcases hb with rfl | rfl <;> exact toNat_ofNat_wide (by decide) (by omega)
    · split at hb
      · have h4 := Nat.mod_lt (c.val.toNat / 4096) (show 0x10 > 0 by decide)
        simp only [mem_cons, not_mem_nil, or_false] at hb
        rcases hb with rfl | rfl | rfl <;> exact toNat_ofNat_wide (by decide) (by omega)
      · have h3 := Nat.mod_lt (c.val.toNat / 262144) (show 0x08 > 0 by decide)
        simp only [mem_cons, not_mem_nil, or_false] at hb
        rcases hb with rfl | rfl | rfl | rfl <;> exact toNat_ofNat_wide (by decide) (by omega)
  intro b hb p
  have := hwide b hb
  unfold onByte
  rw [show decide (b.toNat < 128) = false from decide_eq_false (by omega), Bool.false_and]

theorem length_bytes (l : List Char) : (bytes l).length = byteLen l := by
  unfold bytes byteLen
  simp [length_flatMap]

theorem bytes_cons (c : Char) (l : List Char) :
    bytes (c :: l) = String.utf8EncodeChar c ++ bytes l := by
  simp [bytes]

theorem bytes_append (a b : List Char) : bytes (a ++ b) = bytes a ++ bytes b := by
  simp [bytes]

theorem drop_bytes (a b : List Char) : (bytes (a ++ b)).drop (byteLen a) = bytes b := by
  rw [bytes_append, ← length_bytes, drop_left]

/-- A run of bytes that pass an ASCII test is a run of characters. -/
theorem takeWhile_bytes {p : Char → Bool} (hp : ∀ c, p c = true → ascii c = true) (l : List Char) :
    (bytes l).takeWhile (onByte p) = bytes (l.takeWhile p) := by
  induction l with
  | nil => rfl
  | cons c l ih =>
    rw [bytes_cons]
    by_cases hc : ascii c = true
    · obtain ⟨b, hb, hbp⟩ := encode_ascii hc
      rw [hb, cons_append, nil_append, takeWhile_cons, takeWhile_cons, hbp]
      cases p c with
      | true => rw [if_pos rfl, if_pos rfl, ih, bytes_cons, hb, cons_append, nil_append]
      | false => rw [if_neg (by simp), if_neg (by simp)]; rfl
    · have hpc : p c = false := by
        by_contra h
        exact hc (hp c (by simpa using h))
      rw [takeWhile_cons, hpc, if_neg (by simp)]
      cases he : String.utf8EncodeChar c with
      | nil =>
        have := congrArg List.length he
        have := c.utf8Size_pos
        rw [String.length_utf8EncodeChar, length_nil] at *
        omega
      | cons b bs =>
        have hb := encode_wide (by simpa using hc) b (by rw [he]; exact mem_cons_self) p
        rw [cons_append, takeWhile_cons, hb, if_neg (by simp)]
        rfl

variable {l : List Char}

theorem byteLen_ascii (h : ∀ c ∈ l, ascii c = true) : byteLen l = l.length := by
  induction l with
  | nil => rfl
  | cons c l ih =>
    rw [byteLen_cons, length_cons, ih fun d hd => h d (mem_cons_of_mem c hd),
      utf8Size_ascii (h c mem_cons_self)]
    omega

/-! ## Searching -/

/-- The text before the first place where `hit` holds, and the text from it on. -/
def seek (hit : List Char → Bool) : List Char → Option (List Char × List Char)
  | [] => if hit [] then some ([], []) else none
  | c :: l => if hit (c :: l) then some ([], c :: l) else (seek hit l).map fun p => (c :: p.1, p.2)

/-- `str::find`. -/
def find (needle : String) (l : List Char) : Option Nat :=
  (seek (startsWith needle) l).map fun p => byteLen p.1

theorem seek_append {hit : List Char → Bool} {front here : List Char}
    (h : seek hit l = some (front, here)) : l = front ++ here := by
  induction l generalizing front with
  | nil =>
    unfold seek at h
    split at h
    · cases h; rfl
    · cases h
  | cons c l ih =>
    unfold seek at h
    split at h
    · cases h; rfl
    · obtain ⟨⟨front', here'⟩, hl, hp⟩ := Option.map_eq_some_iff.mp h
      cases hp
      rw [cons_append, ← ih hl]

theorem seek_hit {hit : List Char → Bool} {front here : List Char}
    (h : seek hit l = some (front, here)) : hit here = true := by
  induction l generalizing front with
  | nil =>
    unfold seek at h
    split at h
    · cases h; assumption
    · cases h
  | cons c l ih =>
    unfold seek at h
    split at h
    · cases h; assumption
    · obtain ⟨⟨front', here'⟩, hl, hp⟩ := Option.map_eq_some_iff.mp h
      cases hp
      exact ih hl

/-- Searching a view of the text that keeps every character's place. -/
theorem seek_map (hit : List Char → Bool) (f : Char → Char) (l : List Char) :
    seek hit (l.map f) =
      (seek (fun m => hit (m.map f)) l).map fun p => (p.1.map f, p.2.map f) := by
  induction l with
  | nil =>
    unfold seek
    split <;> simp_all
  | cons c l ih =>
    rw [map_cons, seek, seek, map_cons, ih]
    split
    · rfl
    · cases seek (fun m => hit (m.map f)) l <;> rfl

/-! ## Find, act, search on -/

/-- `while let Some(rel) = view[search_from..].find(needle)`, where `view` follows the text. The
body gets the text and the place found; it gives the text, the place to search from and whether
it replaced something. -/
def scan (view : List Char → List Char) (needle : String)
    (body : List Char → Nat → Exec (List Char × Nat × Bool)) :
    Nat → Nat → List Char → Bool → Exec (List Char × Bool)
  | 0, _, _, _ => .error .outOfFuel
  | fuel + 1, searchFrom, out, changed => do
    match find needle (← sliceFrom (view out) searchFrom) with
    | none => return (out, changed)
    | some rel =>
      let (out, searchFrom, hit) ← body out (searchFrom + rel)
      scan view needle body fuel searchFrom out (changed || hit)

/-- `for (i, j) in ranges.into_iter().rev() { out.replace_range(i..j, new) }`. -/
def replaceRanges (new : List Char) : List (Nat × Nat) → List Char → Exec (List Char)
  | [], out => .ok out
  | (i, j) :: ranges, out => do
    let out ← replaceRanges new ranges out
    replaceRange out i j new

end ContextDesk.Lib.ByteIndex
