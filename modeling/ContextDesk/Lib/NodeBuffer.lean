import ContextDesk.Lib.JsonText
import ContextDesk.Lib.Text

/-!
# Texts as bytes

`Buffer.from(s, "utf8")`, `toString("utf8")` and base64url as the server's runtime has them: a lone
surrogate is written as U+FFFD, ill-formed bytes are read as U+FFFD, and what is not of the alphabet
is skipped. A text of characters survives the bytes (`ofUtf8_toUtf8`), bytes survive base64url
(`fromBase64url_toBase64url`), and JSON text is a text of characters (`isText_stringify`).
-/

namespace ContextDesk.Lib.NodeBuffer

open JsonText JsString List

/-! ## UTF-8 -/

def replacement : Char := Char.ofNat 0xfffd

/-- The character of a unit that is in no pair. -/
def single (u : UInt16) : Char :=
  if isHighSurrogate u || isLowSurrogate u then replacement else Char.ofNat u.toNat

def toChars : JsString → List Char
  | [] => []
  | [u] => [single u]
  | u :: v :: rest =>
    if isHighSurrogate u && isLowSurrogate v then
      Char.ofNat (0x10000 + (u.toNat - 0xd800) * 0x400 + (v.toNat - 0xdc00)) :: toChars rest
    else single u :: toChars (v :: rest)

/-- `Buffer.from(s, "utf8")`. -/
def toUtf8 (s : JsString) : List UInt8 := Text.bytes (toChars s)

/-- `toString("utf8")`. -/
def ofUtf8 (bytes : List UInt8) : JsString := JsString.ofString (Utf8.fromUtf8Lossy bytes).1

/-- The units of some characters: every surrogate is in a pair. -/
def IsText (s : JsString) : Prop := ∃ l : List Char, l.flatMap unitsOf = s

theorem toChars_unitsOf (c : Char) (rest : JsString) :
    toChars (unitsOf c ++ rest) = c :: toChars rest := by
  have hvalid : c.toNat < 0xd800 ∨ 0xdfff < c.toNat ∧ c.toNat < 0x110000 := c.valid
  unfold unitsOf
  split
  · next hlow =>
    have hnat : (UInt16.ofNat c.toNat).toNat = c.toNat :=
      UInt16.toNat_ofNat_of_lt (Nat.lt_of_lt_of_le hlow (by decide))
    have hhigh : isHighSurrogate (UInt16.ofNat c.toNat) = false := by
      simp only [isHighSurrogate, hnat, Bool.and_eq_false_iff, decide_eq_false_iff_not]
      omega
    have hsingle : single (UInt16.ofNat c.toNat) = c := by
      have hlow : isLowSurrogate (UInt16.ofNat c.toNat) = false := by
        simp only [isLowSurrogate, hnat, Bool.and_eq_false_iff, decide_eq_false_iff_not]
        omega
      rw [single, hhigh, hlow, hnat, Char.ofNat_toNat]
      rfl
    cases rest with
    | nil =>
      show [single _] = [c]
      rw [hsingle]
    | cons v rest =>
      rw [singleton_append, toChars, hhigh, Bool.false_and, if_neg Bool.false_ne_true, hsingle]
  · next hlow =>
    have hn : 0x10000 ≤ c.toNat ∧ c.toNat < 0x110000 := by omega
    have hu : (UInt16.ofNat (0xd800 + (c.toNat - 0x10000) / 0x400)).toNat =
        0xd800 + (c.toNat - 0x10000) / 0x400 := UInt16.toNat_ofNat_of_lt (by
      show _ < 65536
      omega)
    have hv : (UInt16.ofNat (0xdc00 + c.toNat % 0x400)).toNat = 0xdc00 + c.toNat % 0x400 :=
      UInt16.toNat_ofNat_of_lt (by
        show _ < 65536
        omega)
    have hpair : (isHighSurrogate (UInt16.ofNat (0xd800 + (c.toNat - 0x10000) / 0x400)) &&
        isLowSurrogate (UInt16.ofNat (0xdc00 + c.toNat % 0x400))) = true := by
      simp only [isHighSurrogate, isLowSurrogate, hu, hv, Bool.and_eq_true, decide_eq_true_eq]
      omega
    have hback : 0x10000 + (0xd800 + (c.toNat - 0x10000) / 0x400 - 0xd800) * 0x400 +
        (0xdc00 + c.toNat % 0x400 - 0xdc00) = c.toNat := by omega
    rw [cons_append, cons_append, nil_append, toChars, if_pos hpair, hu, hv, hback,
      Char.ofNat_toNat]

theorem toChars_flatMap (l : List Char) : toChars (l.flatMap unitsOf) = l := by
  induction l with
  | nil => rfl
  | cons c l ih => rw [flatMap_cons, toChars_unitsOf, ih]

theorem textBytes_ofList (l : List Char) : Utf8.textBytes (String.ofList l) = Text.bytes l := by
  simp [Utf8.textBytes, Text.bytes, List.utf8Encode]

variable {s : JsString}

/-- A text of characters is read back from its bytes. -/
theorem ofUtf8_toUtf8 (h : IsText s) : ofUtf8 (toUtf8 s) = s := by
  obtain ⟨l, rfl⟩ := h
  have hread : Utf8.fromUtf8 (Text.bytes l) = some (String.ofList l) :=
    Utf8.fromUtf8_eq_some.mpr (textBytes_ofList l)
  rw [toUtf8, toChars_flatMap, ofUtf8, Utf8.fromUtf8Lossy, hread, JsString.ofString,
    String.toList_ofList]

/-! ## Texts of characters -/

theorem isText_ofString (s : String) : IsText (JsString.ofString s) := ⟨s.toList, rfl⟩

theorem IsText.append {t : JsString} (hs : IsText s) (ht : IsText t) : IsText (s ++ t) := by
  obtain ⟨l, rfl⟩ := hs
  obtain ⟨m, rfl⟩ := ht
  exact ⟨l ++ m, flatMap_append⟩

variable {n : Nat}

theorem toNat_ofNat (h : n < 0xd800 ∨ 0xdfff < n ∧ n < 0x110000) : (Char.ofNat n).toNat = n := by
  rw [Char.toNat_ofNat, if_pos h]

variable {u : UInt16}

theorem isText_single (h : u.toNat < 0xd800 ∨ 0xe000 ≤ u.toNat) : IsText [u] := by
  have hu : u.toNat < 65536 := u.toNat_lt
  have hnat : (Char.ofNat u.toNat).toNat = u.toNat := toNat_ofNat (by omega)
  refine ⟨[Char.ofNat u.toNat], ?_⟩
  rw [flatMap_singleton, unitsOf, hnat, if_pos hu, UInt16.ofNat_toNat]

theorem isText_cons (h : u.toNat < 0xd800 ∨ 0xe000 ≤ u.toNat) (hs : IsText s) :
    IsText (u :: s) := (isText_single h).append hs

theorem isText_of_ascii (h : ∀ u ∈ s, u.toNat < 0x80) : IsText s := by
  induction s with
  | nil => exact ⟨[], rfl⟩
  | cons u s ih =>
    have hu := h u mem_cons_self
    exact isText_cons (.inl (by omega)) (ih fun v hv => h v (mem_cons_of_mem _ hv))

/-- Text without surrogates is its units, one by one. -/
theorem toChars_of_ascii (h : ∀ u ∈ s, u.toNat < 0x80) :
    toChars s = s.map fun u => Char.ofNat u.toNat := by
  have hunits : (s.map fun u => Char.ofNat u.toNat).flatMap unitsOf = s := by
    rw [flatMap_map]
    refine (flatMap_congr fun u hu => ?_).trans (flatMap_singleton' _)
    have hascii := h u hu
    rw [unitsOf, toNat_ofNat (by omega), if_pos (by omega), UInt16.ofNat_toNat]
  conv_lhs => rw [← hunits]
  exact toChars_flatMap _

theorem isText_of_all (h : (s.all fun u => u.toNat < 0x80) = true) : IsText s :=
  isText_of_ascii fun u hu => of_decide_eq_true (all_eq_true.mp h u hu)

/-- A high and a low surrogate are one character. -/
theorem isText_pair {v : UInt16} (h : (isHighSurrogate u && isLowSurrogate v) = true) :
    IsText [u, v] := by
  simp only [isHighSurrogate, isLowSurrogate, Bool.and_eq_true, decide_eq_true_eq] at h
  obtain ⟨⟨hu, hu'⟩, hv, hv'⟩ := h
  obtain ⟨n, hn⟩ : ∃ n, n = 0x10000 + (u.toNat - 0xd800) * 0x400 + (v.toNat - 0xdc00) := ⟨_, rfl⟩
  have hnat : (Char.ofNat n).toNat = n := toNat_ofNat (by omega)
  have hhigh : 0xd800 + (n - 0x10000) / 0x400 = u.toNat := by omega
  have hlow : 0xdc00 + n % 0x400 = v.toNat := by omega
  refine ⟨[Char.ofNat n], ?_⟩
  rw [flatMap_singleton, unitsOf, hnat, if_neg (by omega), hhigh, hlow, UInt16.ofNat_toNat,
    UInt16.ofNat_toNat]

theorem hexDigit_ascii {n : UInt16} (h : n < 16) : (hexDigit n).toNat < 0x80 := by
  have hall : ∀ k < 16, (hexDigit (UInt16.ofNat k)).toNat < 0x80 := by decide
  have := hall n.toNat (UInt16.lt_iff_toNat_lt.mp h)
  rwa [UInt16.ofNat_toNat] at this

theorem isText_unicodeEscape (u : UInt16) : IsText (unicodeEscape u) := by
  refine isText_of_ascii ?_
  have hdigits : u / 0x1000 < 16 ∧ u / 0x100 % 0x10 < 16 ∧ u / 0x10 % 0x10 < 16 ∧ u % 0x10 < 16 := by
    simp only [UInt16.lt_iff_toNat_lt, UInt16.toNat_div, UInt16.toNat_mod, UInt16.reduceToNat]
    have := UInt16.toNat_lt u
    omega
  obtain ⟨ha, hb, hc, hd⟩ := hdigits
  simp only [unicodeEscape, mem_cons, not_mem_nil, or_false, forall_eq_or_imp, forall_eq]
  exact ⟨by decide, by decide, hexDigit_ascii ha, hexDigit_ascii hb, hexDigit_ascii hc,
    hexDigit_ascii hd⟩

theorem isText_quoteUnit (u : UInt16) : IsText (quoteUnit u) := by
  unfold quoteUnit
  split_ifs with h
  · refine isText_single ?_
    simp only [isPlainUnit, Bool.and_eq_true, Bool.or_eq_true, decide_eq_true_eq] at h
    exact h.1.1.2
  all_goals first
    | exact isText_of_all rfl
    | exact isText_unicodeEscape u

theorem isText_quoteUnits (s : JsString) : IsText (quoteUnits s) := by
  induction s using quoteUnits.induct with
  | case1 => exact ⟨[], rfl⟩
  | case2 u => exact isText_quoteUnit u
  | case3 u v rest hpair ih =>
    rw [quoteUnits, if_pos hpair]
    exact (isText_pair hpair).append ih
  | case4 u v rest hpair ih =>
    rw [quoteUnits, if_neg hpair]
    exact (isText_quoteUnit u).append ih

theorem isText_quote (s : JsString) : IsText (quote s) :=
  isText_cons (.inl (by decide)) ((isText_quoteUnits s).append (isText_single (.inl (by decide))))

theorem numberUnit_ascii (h : isNumberUnit u = true) : u.toNat < 0x80 := by
  simp only [isNumberUnit, Bool.or_eq_true, Bool.and_eq_true, decide_eq_true_eq, beq_iff_eq,
    UInt16.le_iff_toNat_le, ← UInt16.toNat_inj, UInt16.reduceToNat] at h
  omega

mutual

/-- JSON text is a text of characters, whatever the strings in it. -/
theorem isText_stringify : ∀ v : JsonValue, IsText v.stringify
  | .null => isText_ofString _
  | .bool _ => isText_ofString _
  | .number n => isText_of_ascii fun u hu => numberUnit_ascii (n.units u hu)
  | .string s => isText_quote s
  | .array [] => isText_of_all rfl
  | .array (v :: vs) =>
    isText_cons (.inl (by decide)) ((isText_stringify v).append (isText_stringifyItems vs))
  | .object [] => isText_of_all rfl
  | .object ((k, v) :: fs) =>
    isText_cons (.inl (by decide)) ((isText_quote k).append (isText_cons (.inl (by decide))
      ((isText_stringify v).append (isText_stringifyFields fs))))

theorem isText_stringifyItems : ∀ vs : List JsonValue, IsText (JsonValue.stringifyItems vs)
  | [] => isText_single (.inl (by decide))
  | v :: vs =>
    isText_cons (.inl (by decide)) ((isText_stringify v).append (isText_stringifyItems vs))

theorem isText_stringifyFields : ∀ fs : List (JsString × JsonValue),
    IsText (JsonValue.stringifyFields fs)
  | [] => isText_single (.inl (by decide))
  | (k, v) :: fs =>
    isText_cons (.inl (by decide)) ((isText_quote k).append (isText_cons (.inl (by decide))
      ((isText_stringify v).append (isText_stringifyFields fs))))

end

/-! ## base64url -/

/-- The digit of the alphabet. -/
def symbol (n : Nat) : UInt16 :=
  if n < 26 then UInt16.ofNat (65 + n) else if n < 52 then UInt16.ofNat (71 + n)
  else if n < 62 then UInt16.ofNat (n - 4) else if n = 62 then 45 else 95

/-- The value of a digit of either alphabet. -/
def sextet (u : UInt16) : Option Nat :=
  let n := u.toNat
  if 65 ≤ n ∧ n ≤ 90 then some (n - 65) else if 97 ≤ n ∧ n ≤ 122 then some (n - 71)
  else if 48 ≤ n ∧ n ≤ 57 then some (n + 4) else if n = 45 ∨ n = 43 then some 62
  else if n = 95 ∨ n = 47 then some 63 else none

/-- `toString("base64url")`. -/
def toBase64url : List UInt8 → JsString
  | a :: b :: c :: rest =>
    symbol (a.toNat / 4) :: symbol (a.toNat % 4 * 16 + b.toNat / 16) ::
      symbol (b.toNat % 16 * 4 + c.toNat / 64) :: symbol (c.toNat % 64) :: toBase64url rest
  | [a, b] =>
    [symbol (a.toNat / 4), symbol (a.toNat % 4 * 16 + b.toNat / 16), symbol (b.toNat % 16 * 4)]
  | [a] => [symbol (a.toNat / 4), symbol (a.toNat % 4 * 16)]
  | [] => []

/-- The bytes of the digits; what is left of an incomplete byte is dropped. -/
def joinSextets : List Nat → List UInt8
  | p :: q :: r :: s :: rest =>
    UInt8.ofNat (p * 4 + q / 16) :: UInt8.ofNat (q % 16 * 16 + r / 4) ::
      UInt8.ofNat (r % 4 * 64 + s) :: joinSextets rest
  | [p, q, r] => [UInt8.ofNat (p * 4 + q / 16), UInt8.ofNat (q % 16 * 16 + r / 4)]
  | [p, q] => [UInt8.ofNat (p * 4 + q / 16)]
  | _ => []

/-- `Buffer.from(s, "base64url")`. -/
def fromBase64url (s : JsString) : List UInt8 := joinSextets (s.filterMap sextet)

theorem sextet_symbol (h : n < 64) : sextet (symbol n) = some n := by
  have hall : ∀ k < 64, sextet (symbol k) = some k := by decide
  exact hall n h

theorem byte_eq {a : UInt8} (h : n = a.toNat) : UInt8.ofNat n = a := by
  rw [h, UInt8.ofNat_toNat]

/-- Bytes are read back from their base64url text. -/
theorem fromBase64url_toBase64url (bytes : List UInt8) :
    fromBase64url (toBase64url bytes) = bytes := by
  have hlt : ∀ a : UInt8, a.toNat < 256 := UInt8.toNat_lt
  unfold fromBase64url
  induction bytes using toBase64url.induct with
  | case1 a b c rest ih =>
    have := hlt a
    have := hlt b
    have := hlt c
    simp only [toBase64url, filterMap_cons, sextet_symbol (n := a.toNat / 4) (by omega),
      sextet_symbol (n := a.toNat % 4 * 16 + b.toNat / 16) (by omega),
      sextet_symbol (n := b.toNat % 16 * 4 + c.toNat / 64) (by omega),
      sextet_symbol (n := c.toNat % 64) (by omega), joinSextets, ih]
    rw [byte_eq (a := a) (by omega), byte_eq (a := b) (by omega), byte_eq (a := c) (by omega)]
  | case2 a b =>
    have := hlt a
    have := hlt b
    simp only [toBase64url, filterMap_cons, sextet_symbol (n := a.toNat / 4) (by omega),
      sextet_symbol (n := a.toNat % 4 * 16 + b.toNat / 16) (by omega),
      sextet_symbol (n := b.toNat % 16 * 4) (by omega), filterMap_nil, joinSextets]
    rw [byte_eq (a := a) (by omega), byte_eq (a := b) (by omega)]
  | case3 a =>
    have := hlt a
    simp only [toBase64url, filterMap_cons, sextet_symbol (n := a.toNat / 4) (by omega),
      sextet_symbol (n := a.toNat % 4 * 16) (by omega), filterMap_nil, joinSextets]
    rw [byte_eq (a := a) (by omega)]
  | case4 => rfl

end ContextDesk.Lib.NodeBuffer
