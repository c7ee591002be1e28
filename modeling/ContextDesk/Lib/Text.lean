import ContextDesk.Lib.Outcome

/-!
# Text as lists of characters

The operations on text that the standard library of the source gives: Unicode white space and
control characters, trimming, splitting at the last occurrence of a character, ASCII case, and the
UTF-8 bytes of a text.
-/

namespace ContextDesk.Lib.Text

/-- Named, so that no definition proves it once more. -/
instance lawfulBEq_chars : LawfulBEq (List Char) := inferInstance

/-- The Unicode property `White_Space`. -/
def isWhitespace (c : Char) : Bool :=
  let n := c.toNat
  (9 ≤ n && n ≤ 13) || n == 0x20 || n == 0x85 || n == 0xa0 || n == 0x1680 ||
    (0x2000 ≤ n && n ≤ 0x200a) || n == 0x2028 || n == 0x2029 || n == 0x202f || n == 0x205f ||
    n == 0x3000

/-- The Unicode category `Cc`. -/
def isControl (c : Char) : Bool :=
  c.toNat ≤ 0x1f || (0x7f ≤ c.toNat && c.toNat ≤ 0x9f)

def trimStart (l : List Char) : List Char := l.dropWhile isWhitespace

def trimEnd (l : List Char) : List Char := (l.reverse.dropWhile isWhitespace).reverse

def trim (l : List Char) : List Char := trimEnd (trimStart l)

theorem mem_dropWhile {p : Char → Bool} {l : List Char} {c : Char} (hc : c ∈ l)
    (hp : p c = false) : c ∈ l.dropWhile p := by
  rw [← List.takeWhile_append_dropWhile (p := p) (l := l)] at hc
  rcases List.mem_append.mp hc with h | h
  · rw [List.mem_takeWhile_imp h] at hp
    cases hp
  · exact h

/-- Trimming drops white space only. -/
theorem mem_trim {l : List Char} {c : Char} (hc : c ∈ l) (hw : isWhitespace c = false) :
    c ∈ trim l := by
  unfold trim trimEnd trimStart
  have h := mem_dropWhile hc hw
  exact List.mem_reverse.mpr (mem_dropWhile (List.mem_reverse.mpr h) hw)

theorem trim_sublist (l : List Char) : (trim l).Sublist l := by
  unfold trim trimEnd trimStart
  have h := List.reverse_sublist.mpr
    (List.dropWhile_sublist isWhitespace (l := (l.dropWhile isWhitespace).reverse))
  rw [List.reverse_reverse] at h
  exact h.trans (List.dropWhile_sublist _)

/-- The texts before and after the last `c`. -/
def rsplitOnce (c : Char) (l : List Char) : Option (List Char × List Char) :=
  match l.reverse.span (· ≠ c) with
  | (_, []) => none
  | (after, _ :: before) => some (before.reverse, after.reverse)

/-- `str::to_ascii_lowercase`. -/
def asciiLower (l : List Char) : List Char := l.map Char.toLower

theorem asciiLower_idem (l : List Char) : asciiLower (asciiLower l) = asciiLower l := by
  unfold asciiLower
  rw [List.map_map]
  exact List.map_congr_left fun c _ => Char.toLower_toLower_eq_toLower c

/-- `str::eq_ignore_ascii_case`. -/
def eqIgnoreAsciiCase (a b : List Char) : Bool := asciiLower a = asciiLower b

/-- The UTF-8 bytes of a text. -/
def bytes (l : List Char) : List UInt8 := l.flatMap String.utf8EncodeChar

/-- `truncate_bytes`: the longest start of so many bytes. -/
def truncateBytes : List Char → Nat → List Char
  | [], _ => []
  | c :: l, n => if c.utf8Size ≤ n then c :: truncateBytes l (n - c.utf8Size) else []

end ContextDesk.Lib.Text

/-!
## UTF-8 bytes

`fromUtf8` decodes a list of bytes strictly: the text whose bytes they are, or nothing.
`utf8ErrorText` is the text the standard library of the source shows for bytes that are not a
text: `validUpTo` is the length of the longest decodable start, `errorLen` the length of the
ill-formed sequence after it, absent when the bytes end inside a character.
-/

namespace ContextDesk.Lib.Utf8

/-- The bytes of a text. -/
def textBytes (s : String) : List UInt8 := s.toByteArray.data.toList

theorem textBytes_inj {s t : String} (h : textBytes s = textBytes t) : s = t := by
  unfold textBytes at h
  rw [Array.toList_inj] at h
  exact String.toByteArray_inj.mp (ByteArray.ext h)

/-- `String::from_utf8`. -/
def fromUtf8 (bytes : List UInt8) : Option String := String.fromUTF8? ⟨bytes.toArray⟩

theorem fromUtf8_eq_some {bytes : List UInt8} {s : String} :
    fromUtf8 bytes = some s ↔ textBytes s = bytes := by
  unfold fromUtf8 textBytes String.fromUTF8?
  constructor
  · intro h
    split at h
    · cases h
      simp [String.fromUTF8]
    · cases h
  · rintro rfl
    have h : ByteArray.IsValidUTF8 ⟨s.toByteArray.data⟩ := s.isValidUTF8
    simpa [String.fromUTF8] using h

theorem fromUtf8_isSome {bytes : List UInt8} :
    (fromUtf8 bytes).isSome ↔ ∃ s, textBytes s = bytes := by
  rw [Option.isSome_iff_exists]
  exact exists_congr fun s => fromUtf8_eq_some

/-- How many bytes the character that starts with `b` has; zero when none starts so. -/
def width (b : UInt8) : Nat :=
  if b < 0x80 then 1
  else if 0xC2 ≤ b && b ≤ 0xDF then 2
  else if 0xE0 ≤ b && b ≤ 0xEF then 3
  else if 0xF0 ≤ b && b ≤ 0xF4 then 4
  else 0

/-- The least and the greatest second byte after `b`. -/
def secondBytes (b : UInt8) : UInt8 × UInt8 :=
  if b = 0xE0 then (0xA0, 0xBF)
  else if b = 0xED then (0x80, 0x9F)
  else if b = 0xF0 then (0x90, 0xBF)
  else if b = 0xF4 then (0x80, 0x8F)
  else (0x80, 0xBF)

/-- Read continuation bytes after the first `read` bytes of a character of `read + needed` bytes. -/
def continuationError : Nat → Nat → UInt8 × UInt8 → List UInt8 → Option Nat
  | 0, read, _, _ => some read
  | _ + 1, _, _, [] => none
  | needed + 1, read, (least, greatest), b :: bytes =>
    if least ≤ b && b ≤ greatest then continuationError needed (read + 1) (0x80, 0xBF) bytes
    else some read

/-- `Utf8Error::error_len` for bytes that start with no character. -/
def errorLen : List UInt8 → Option Nat
  | [] => none
  | b :: bytes =>
    if width b ≤ 1 then some 1
    else continuationError (width b - 1) 1 (secondBytes b) bytes

/-- `Utf8Error::valid_up_to`. -/
def validUpTo (bytes : List UInt8) : Nat :=
  Nat.findGreatest (fun k => (fromUtf8 (bytes.take k)).isSome = true) bytes.length

/-- Every ill-formed sequence, and an incomplete one at the end, becomes U+FFFD. -/
def lossyChars : Nat → List UInt8 → List Char
  | 0, _ => []
  | fuel + 1, bytes =>
    match fromUtf8 bytes with
    | some s => s.toList
    | none =>
      let index := validUpTo bytes
      ((fromUtf8 (bytes.take index)).getD "").toList ++ Char.ofNat 0xFFFD ::
        match errorLen (bytes.drop index) with
        | some len => lossyChars fuel (bytes.drop (index + len))
        | none => []

/-- `String::from_utf8_lossy`: the text, and whether something was replaced in it. -/
def fromUtf8Lossy (bytes : List UInt8) : String × Bool :=
  match fromUtf8 bytes with
  | some s => (s, false)
  | none => (String.ofList (lossyChars (bytes.length + 1) bytes), true)

/-- The text of a `Utf8Error`. -/
def utf8ErrorText (bytes : List UInt8) : String :=
  let index := validUpTo bytes
  match errorLen (bytes.drop index) with
  | some len => s!"invalid utf-8 sequence of {len} bytes from index {index}"
  | none => s!"incomplete utf-8 byte sequence from index {index}"

end ContextDesk.Lib.Utf8
