import ContextDesk.Lib.JsString

/-!
# JSON text

A JSON value with its object members in order, and the text `JSON.stringify` gives it. A number is
kept as its text. A text is read in one way only: what follows a value is not part of it
(`stringify_append_inj`), so different values have different texts (`stringify_injective`).
-/

open List

namespace ContextDesk.Lib

def isNumberUnit (u : UInt16) : Bool :=
  (48 ≤ u && u ≤ 57) || u == 43 || u == 45 || u == 46 || u == 69 || u == 101

/-- The text of a number. -/
structure NumberText where
  text : JsString
  nonempty : text ≠ []
  units : ∀ u ∈ text, isNumberUnit u = true

theorem NumberText.ext_text {m n : NumberText} (h : m.text = n.text) : m = n := by
  cases m
  cases n
  subst h
  rfl

inductive JsonValue where
  | null
  | bool (b : Bool)
  | number (n : NumberText)
  | string (s : JsString)
  | array (items : List JsonValue)
  | object (fields : List (JsString × JsonValue))

namespace JsonText

/-! ## Integers -/

def digitUnit (c : Char) : UInt16 := UInt16.ofNat c.toNat

variable {n : Nat}

theorem digit_range {c : Char} (h : c ∈ Nat.toDigits 10 n) : 48 ≤ c.toNat ∧ c.toNat ≤ 57 := by
  have hdigit := Nat.isDigit_of_mem_toDigits (by decide) (by decide) h
  simp only [Char.isDigit, ge_iff_le, Bool.and_eq_true, decide_eq_true_eq] at hdigit
  exact hdigit

/-- The decimal text of a natural number. -/
def decimal (n : Nat) : NumberText where
  text := (Nat.toDigits 10 n).map digitUnit
  nonempty := by simp
  units := by
    intro u hu
    obtain ⟨c, hc, rfl⟩ := mem_map.mp hu
    have hall : ∀ k < 58, 48 ≤ k → isNumberUnit (UInt16.ofNat k) = true := by decide
    obtain ⟨hlow, hhigh⟩ := digit_range hc
    exact hall c.toNat (by omega) hlow

theorem ofNat_digitUnit {c : Char} (h : c ∈ Nat.toDigits 10 n) :
    Char.ofNat (digitUnit c).toNat = c := by
  have hback : ∀ k < 58, (UInt16.ofNat k).toNat = k := by decide
  obtain ⟨-, hhigh⟩ := digit_range h
  rw [digitUnit, hback c.toNat (by omega), Char.ofNat_toNat]

theorem decimal_injective {m : Nat} (h : decimal m = decimal n) : m = n := by
  have hread : ∀ k, ((decimal k).text.map fun u => Char.ofNat u.toNat) = Nat.toDigits 10 k := by
    intro k
    show ((Nat.toDigits 10 k).map digitUnit).map _ = _
    rw [map_map]
    exact (map_congr_left fun c hc => ofNat_digitUnit hc).trans (map_id _)
  have hdigits : Nat.toDigits 10 m = Nat.toDigits 10 n := by rw [← hread m, h, hread n]
  rw [← Nat.ofDigitChars_ten_toDigits (n := m), hdigits, Nat.ofDigitChars_ten_toDigits]

/-! ## Strings -/

def isHighSurrogate (u : UInt16) : Bool := 0xd800 ≤ u.toNat && u.toNat ≤ 0xdbff
def isLowSurrogate (u : UInt16) : Bool := 0xdc00 ≤ u.toNat && u.toNat ≤ 0xdfff

/-- A unit that stands for itself in a quoted text. -/
def isPlainUnit (u : UInt16) : Bool :=
  let n := u.toNat
  0x20 ≤ n && (n < 0xd800 || 0xe000 ≤ n) && n != 0x22 && n != 0x5c

def hexDigit (n : UInt16) : UInt16 := if n < 10 then 48 + n else 87 + n

def unicodeEscape (u : UInt16) : JsString :=
  [0x5c, 0x75, hexDigit (u / 0x1000), hexDigit (u / 0x100 % 0x10), hexDigit (u / 0x10 % 0x10),
    hexDigit (u % 0x10)]

/-- A unit on its own inside a quoted text. -/
def quoteUnit (u : UInt16) : JsString :=
  if isPlainUnit u then [u]
  else if u = 0x22 then [0x5c, 0x22]
  else if u = 0x5c then [0x5c, 0x5c]
  else if u = 8 then [0x5c, 0x62]
  else if u = 9 then [0x5c, 0x74]
  else if u = 10 then [0x5c, 0x6e]
  else if u = 12 then [0x5c, 0x66]
  else if u = 13 then [0x5c, 0x72]
  else unicodeEscape u

def quoteUnits : JsString → JsString
  | [] => []
  | [u] => quoteUnit u
  | u :: v :: rest =>
    if isHighSurrogate u && isLowSurrogate v then u :: v :: quoteUnits rest
    else quoteUnit u ++ quoteUnits (v :: rest)

def quote (s : JsString) : JsString := 0x22 :: quoteUnits s ++ [0x22]

def hexValue (u : UInt16) : UInt16 := if u < 58 then u - 48 else u - 87

/-- Reads one unit of a quoted text, `none` at its end. -/
def readUnit : JsString → Option (UInt16 × JsString)
  | [] => none
  | 0x22 :: _ => none
  | 0x5c :: 0x75 :: a :: b :: c :: d :: rest =>
    some (hexValue a * 0x1000 + hexValue b * 0x100 + hexValue c * 0x10 + hexValue d, rest)
  | 0x5c :: u :: rest =>
    some (if u = 0x62 then 8 else if u = 0x74 then 9 else if u = 0x6e then 10
      else if u = 0x66 then 12 else if u = 0x72 then 13 else u, rest)
  | u :: rest => some (u, rest)

/-- A text that reads as one unit, whatever follows. -/
def Spells (u : UInt16) (text : JsString) : Prop :=
  ∀ rest, readUnit (text ++ rest) = some (u, rest)

theorem spells_self {u : UInt16} (hquote : u ≠ 0x22) (hslash : u ≠ 0x5c) : Spells u [u] := by
  intro rest
  unfold readUnit
  split <;> simp_all

theorem hexValue_hexDigit {n : UInt16} (h : n < 16) : hexValue (hexDigit n) = n := by
  have hall : ∀ k < 16, hexValue (hexDigit (UInt16.ofNat k)) = UInt16.ofNat k := by decide
  have := hall n.toNat (UInt16.lt_iff_toNat_lt.mp h)
  rwa [UInt16.ofNat_toNat] at this

theorem spells_unicodeEscape (u : UInt16) : Spells u (unicodeEscape u) := by
  intro rest
  have hdigits : u / 0x1000 < 16 ∧ u / 0x100 % 0x10 < 16 ∧ u / 0x10 % 0x10 < 16 ∧ u % 0x10 < 16 := by
    simp only [UInt16.lt_iff_toNat_lt, UInt16.toNat_div, UInt16.toNat_mod, UInt16.reduceToNat]
    have := UInt16.toNat_lt u
    omega
  obtain ⟨ha, hb, hc, hd⟩ := hdigits
  show some (hexValue (hexDigit (u / 0x1000)) * 0x1000 +
    hexValue (hexDigit (u / 0x100 % 0x10)) * 0x100 + hexValue (hexDigit (u / 0x10 % 0x10)) * 0x10 +
    hexValue (hexDigit (u % 0x10)), rest) = some (u, rest)
  rw [hexValue_hexDigit ha, hexValue_hexDigit hb, hexValue_hexDigit hc, hexValue_hexDigit hd]
  congr 2
  rw [← UInt16.toNat_inj]
  simp only [UInt16.toNat_add, UInt16.toNat_mul, UInt16.toNat_div, UInt16.toNat_mod,
    UInt16.reduceToNat]
  have := UInt16.toNat_lt u
  omega

theorem spells_plain {u : UInt16} (h : isPlainUnit u = true) : Spells u [u] := by
  refine spells_self ?_ ?_ <;> rintro rfl <;> exact absurd h (by decide)

theorem spells_quoteUnit (u : UInt16) : Spells u (quoteUnit u) := by
  unfold quoteUnit
  split_ifs with h h1 h2 h3 h4 h5 h6 h7
  all_goals first
    | exact spells_plain h
    | exact spells_unicodeEscape u
    | (subst_vars; intro rest; rfl)

/-- What a quoted text spells, unit by unit. -/
inductive Spelled : JsString → JsString → Prop
  | nil : Spelled [] []
  | cons {u : UInt16} {text s t : JsString} (head : Spells u text) (tail : Spelled s t) :
      Spelled (u :: s) (text ++ t)

theorem spelled_quoteUnits (s : JsString) : Spelled s (quoteUnits s) := by
  induction s using quoteUnits.induct with
  | case1 => exact .nil
  | case2 u =>
    rw [quoteUnits, ← append_nil (quoteUnit u)]
    exact .cons (spells_quoteUnit u) .nil
  | case3 u v rest hpair ih =>
    rw [quoteUnits, if_pos hpair]
    simp only [isHighSurrogate, isLowSurrogate, Bool.and_eq_true, decide_eq_true_eq] at hpair
    have hne : ∀ w : UInt16, 0xd800 ≤ w.toNat → w ≠ 0x22 ∧ w ≠ 0x5c := by
      intro w hw
      refine ⟨?_, ?_⟩ <;> rintro rfl <;> exact absurd hw (by decide)
    obtain ⟨hu, hu'⟩ := hne u hpair.1.1
    obtain ⟨hv, hv'⟩ := hne v (le_trans (by decide) hpair.2.1)
    exact .cons (spells_self hu hu') (.cons (spells_self hv hv') ih)
  | case4 u v rest hpair ih =>
    rw [quoteUnits, if_neg hpair]
    exact .cons (spells_quoteUnit u) ih

theorem Spelled.append_inj {s t s' t' : JsString} (h : Spelled s t) (h' : Spelled s' t')
    {r r' : JsString} (heq : t ++ 0x22 :: r = t' ++ 0x22 :: r') : s = s' ∧ r = r' := by
  induction h generalizing s' t' with
  | nil =>
    cases h' with
    | nil => exact ⟨rfl, (cons.inj heq).2⟩
    | @cons u text s t head tail =>
      have hread := head (t ++ 0x22 :: r')
      rw [← append_assoc, ← heq] at hread
      exact absurd hread (by simp [readUnit])
  | @cons u text s t head tail ih =>
    cases h' with
    | nil =>
      have hread := head (t ++ 0x22 :: r)
      rw [← append_assoc, heq] at hread
      exact absurd hread (by simp [readUnit])
    | @cons u' text' s' t' head' tail' =>
      have hread := head (t ++ 0x22 :: r)
      rw [← append_assoc, heq, append_assoc, head' (t' ++ 0x22 :: r')] at hread
      obtain ⟨rfl, hrest⟩ := Prod.mk.inj (Option.some.inj hread)
      obtain ⟨rfl, hr⟩ := ih tail' hrest.symm
      exact ⟨rfl, hr⟩

theorem quote_append_inj {s s' r r' : JsString} (h : quote s ++ r = quote s' ++ r') :
    s = s' ∧ r = r' := by
  simp only [quote, cons_append, append_assoc, cons.injEq, true_and] at h
  exact (spelled_quoteUnits s).append_inj (spelled_quoteUnits s') h

end JsonText

namespace JsonValue

open JsonText

mutual

/-- `JSON.stringify`. -/
def stringify : JsonValue → JsString
  | null => JsString.ofString "null"
  | bool b => JsString.ofString (if b then "true" else "false")
  | number n => n.text
  | string s => quote s
  | array [] => [0x5b, 0x5d]
  | array (v :: vs) => 0x5b :: (stringify v ++ stringifyItems vs)
  | object [] => [0x7b, 0x7d]
  | object ((k, v) :: fs) => 0x7b :: (quote k ++ 0x3a :: (stringify v ++ stringifyFields fs))

/-- The items of an array after the first, to its end. -/
def stringifyItems : List JsonValue → JsString
  | [] => [0x5d]
  | v :: vs => 0x2c :: (stringify v ++ stringifyItems vs)

def stringifyFields : List (JsString × JsonValue) → JsString
  | [] => [0x7d]
  | (k, v) :: fs => 0x2c :: (quote k ++ 0x3a :: (stringify v ++ stringifyFields fs))

end

/-- A number ends here. -/
def Ends (r : JsString) : Prop := ∀ u ∈ r.head?, isNumberUnit u = false

theorem ends_stringifyItems (vs : List JsonValue) (r : JsString) :
    Ends (stringifyItems vs ++ r) := by
  cases vs <;> simp [stringifyItems, Ends] <;> decide

theorem ends_stringifyFields (fs : List (JsString × JsonValue)) (r : JsString) :
    Ends (stringifyFields fs ++ r) := by
  rcases fs with _ | ⟨⟨k, v⟩, fs⟩ <;> simp [stringifyFields, Ends] <;> decide

/-- What the first unit of a text tells. -/
inductive Kind where
  | null
  | bool (b : Bool)
  | number
  | string
  | array
  | object
  deriving DecidableEq

def kind : JsonValue → Kind
  | null => .null
  | bool b => .bool b
  | number _ => .number
  | string _ => .string
  | array _ => .array
  | object _ => .object

def kindOf (u : UInt16) : Kind :=
  if u = 0x6e then .null else if u = 0x74 then .bool true else if u = 0x66 then .bool false
  else if u = 0x22 then .string else if u = 0x5b then .array else if u = 0x7b then .object
  else .number

theorem kindOf_number {u : UInt16} (h : isNumberUnit u = true) : kindOf u = .number := by
  have hall : ∀ w ∈ [0x6e, 0x74, 0x66, 0x22, 0x5b, 0x7b], isNumberUnit w = false := by
    simp [isNumberUnit]
  have hne : ∀ w ∈ [0x6e, 0x74, 0x66, 0x22, 0x5b, 0x7b], u ≠ w := by
    rintro w hw rfl
    rw [hall u hw] at h
    exact Bool.false_ne_true h
  simp only [mem_cons, not_mem_nil, or_false, forall_eq_or_imp, forall_eq] at hne
  simp [kindOf, hne]

theorem exists_lead (v : JsonValue) : ∃ u t, v.stringify = u :: t ∧ kindOf u = v.kind := by
  cases v with
  | null => exact ⟨_, _, rfl, rfl⟩
  | bool b => cases b <;> exact ⟨_, _, rfl, rfl⟩
  | number n =>
    obtain ⟨u, t, htext⟩ := exists_cons_of_ne_nil n.nonempty
    exact ⟨u, t, htext, kindOf_number (n.units u (htext ▸ mem_cons_self))⟩
  | string s => exact ⟨_, _, rfl, rfl⟩
  | array items => cases items <;> exact ⟨_, _, by rw [stringify], rfl⟩
  | object fields => rcases fields with _ | ⟨⟨k, v⟩, fs⟩ <;> exact ⟨_, _, by rw [stringify], rfl⟩

variable {v w : JsonValue} {r r' : JsString}

theorem kind_eq (h : v.stringify ++ r = w.stringify ++ r') : v.kind = w.kind := by
  obtain ⟨u, t, hv, hkind⟩ := exists_lead v
  obtain ⟨u', t', hw, hkind'⟩ := exists_lead w
  rw [hv, hw] at h
  rw [← hkind, ← hkind', (cons.inj h).1]

theorem takeWhile_number {t : JsString} (ht : ∀ u ∈ t, isNumberUnit u = true) (hr : Ends r) :
    (t ++ r).takeWhile isNumberUnit = t := by
  rw [takeWhile_append_of_pos ht]
  cases r with
  | nil => simp
  | cons u r =>
    rw [takeWhile_cons_of_neg, append_nil]
    rw [hr u rfl]
    exact Bool.false_ne_true

theorem number_append_inj {m n : NumberText} (hr : Ends r) (hr' : Ends r')
    (h : m.text ++ r = n.text ++ r') : m = n ∧ r = r' := by
  have htext : m.text = n.text := by
    rw [← takeWhile_number m.units hr, h, takeWhile_number n.units hr']
  refine ⟨NumberText.ext_text htext, ?_⟩
  rw [htext] at h
  exact append_cancel_left h

theorem of_kind_string (h : w.kind = .string) : ∃ s, w = string s := by
  cases w <;> first | exact ⟨_, rfl⟩ | exact absurd h (by simp [kind])

theorem of_kind_number (h : w.kind = .number) : ∃ n, w = number n := by
  cases w <;> first | exact ⟨_, rfl⟩ | exact absurd h (by simp [kind])

theorem of_kind_array (h : w.kind = .array) : ∃ items, w = array items := by
  cases w <;> first | exact ⟨_, rfl⟩ | exact absurd h (by simp [kind])

theorem of_kind_object (h : w.kind = .object) : ∃ fields, w = object fields := by
  cases w <;> first | exact ⟨_, rfl⟩ | exact absurd h (by simp [kind])

/-- A value does not begin with the bracket that closes an array or an object. -/
theorem stringify_ne_close {u : UInt16} (hu : u = 0x5d ∨ u = 0x7d)
    (h : v.stringify ++ r = u :: r') : False := by
  obtain ⟨u', t, hv, hkind⟩ := exists_lead v
  rw [hv] at h
  obtain ⟨rfl, -⟩ := cons.inj h
  have hnumber : kindOf u' = .number := by rcases hu with rfl | rfl <;> rfl
  rw [hnumber] at hkind
  obtain ⟨n, rfl⟩ := of_kind_number hkind.symm
  have htext : n.text = u' :: t := hv
  have hunit := n.units u' (htext ▸ mem_cons_self)
  rcases hu with rfl | rfl <;> exact absurd hunit (by decide)

mutual

/-- What follows the text of a value is not part of it. -/
theorem stringify_append_inj : ∀ (v w : JsonValue) (r r' : JsString), Ends r → Ends r' →
    v.stringify ++ r = w.stringify ++ r' → v = w ∧ r = r'
  | null, w, r, r', _, _, h => by
    have hw : w = null := by
      cases w <;> first | rfl | exact absurd (kind_eq h) (by simp [kind])
    subst hw
    exact ⟨rfl, append_cancel_left h⟩
  | bool b, w, r, r', _, _, h => by
    have hw : w = bool b := by
      cases w with
      | bool b' => rw [Kind.bool.inj (kind_eq h)]
      | _ => exact absurd (kind_eq h) (by simp [kind])
    subst hw
    exact ⟨rfl, append_cancel_left h⟩
  | number n, w, r, r', hr, hr', h => by
    obtain ⟨m, rfl⟩ := of_kind_number (kind_eq h).symm
    obtain ⟨rfl, hrest⟩ := number_append_inj hr hr' h
    exact ⟨rfl, hrest⟩
  | string s, w, r, r', _, _, h => by
    obtain ⟨s', rfl⟩ := of_kind_string (kind_eq h).symm
    obtain ⟨rfl, hrest⟩ := quote_append_inj h
    exact ⟨rfl, hrest⟩
  | array [], w, r, r', _, _, h => by
    obtain ⟨items, rfl⟩ := of_kind_array (kind_eq h).symm
    cases items with
    | nil => exact ⟨rfl, append_cancel_left h⟩
    | cons v vs =>
      rw [stringify, stringify, cons_append, cons_append (a := 0x5b),
        append_assoc] at h
      exact (stringify_ne_close (.inl rfl) (cons.inj h).2.symm).elim
  | array (v :: vs), w, r, r', _, _, h => by
    obtain ⟨items, rfl⟩ := of_kind_array (kind_eq h).symm
    cases items with
    | nil =>
      rw [stringify, stringify, cons_append, cons_append, append_assoc] at h
      exact (stringify_ne_close (.inl rfl) (cons.inj h).2).elim
    | cons v' vs' =>
      rw [stringify, stringify, cons_append, cons_append, append_assoc,
        append_assoc] at h
      obtain ⟨rfl, hitems⟩ := stringify_append_inj v v' _ _ (ends_stringifyItems vs r)
        (ends_stringifyItems vs' r') (cons.inj h).2
      obtain ⟨rfl, hrest⟩ := stringifyItems_append_inj vs vs' r r' hitems
      exact ⟨rfl, hrest⟩
  | object [], w, r, r', _, _, h => by
    obtain ⟨fields, rfl⟩ := of_kind_object (kind_eq h).symm
    rcases fields with _ | ⟨⟨k, v⟩, fs⟩
    · exact ⟨rfl, append_cancel_left h⟩
    · rw [stringify, stringify] at h
      exact absurd (cons.inj (cons.inj h).2).1 (by decide)
  | object ((k, v) :: fs), w, r, r', _, _, h => by
    obtain ⟨fields, rfl⟩ := of_kind_object (kind_eq h).symm
    rcases fields with _ | ⟨⟨k', v'⟩, fs'⟩
    · rw [stringify, stringify] at h
      exact absurd (cons.inj (cons.inj h).2).1 (by decide)
    · rw [stringify, stringify, cons_append, cons_append, append_assoc,
        append_assoc] at h
      obtain ⟨rfl, hvalue⟩ := quote_append_inj (cons.inj h).2
      rw [cons_append, cons_append, append_assoc, append_assoc] at hvalue
      obtain ⟨rfl, hfields⟩ := stringify_append_inj v v' _ _ (ends_stringifyFields fs r)
        (ends_stringifyFields fs' r') (cons.inj hvalue).2
      obtain ⟨rfl, hrest⟩ := stringifyFields_append_inj fs fs' r r' hfields
      exact ⟨rfl, hrest⟩

theorem stringifyItems_append_inj : ∀ (vs ws : List JsonValue) (r r' : JsString),
    stringifyItems vs ++ r = stringifyItems ws ++ r' → vs = ws ∧ r = r'
  | [], [], r, r', h => ⟨rfl, append_cancel_left h⟩
  | [], w :: ws, r, r', h => by
    rw [stringifyItems, stringifyItems] at h
    exact absurd (cons.inj h).1 (by decide)
  | v :: vs, [], r, r', h => by
    rw [stringifyItems, stringifyItems] at h
    exact absurd (cons.inj h).1 (by decide)
  | v :: vs, w :: ws, r, r', h => by
    rw [stringifyItems, stringifyItems, cons_append, cons_append, append_assoc,
      append_assoc] at h
    obtain ⟨rfl, hitems⟩ := stringify_append_inj v w _ _ (ends_stringifyItems vs r)
      (ends_stringifyItems ws r') (cons.inj h).2
    obtain ⟨rfl, hrest⟩ := stringifyItems_append_inj vs ws r r' hitems
    exact ⟨rfl, hrest⟩

theorem stringifyFields_append_inj : ∀ (fs gs : List (JsString × JsonValue)) (r r' : JsString),
    stringifyFields fs ++ r = stringifyFields gs ++ r' → fs = gs ∧ r = r'
  | [], [], r, r', h => ⟨rfl, append_cancel_left h⟩
  | [], (k, v) :: gs, r, r', h => by
    rw [stringifyFields, stringifyFields] at h
    exact absurd (cons.inj h).1 (by decide)
  | (k, v) :: fs, [], r, r', h => by
    rw [stringifyFields, stringifyFields] at h
    exact absurd (cons.inj h).1 (by decide)
  | (k, v) :: fs, (k', v') :: gs, r, r', h => by
    rw [stringifyFields, stringifyFields, cons_append, cons_append, append_assoc,
      append_assoc] at h
    obtain ⟨rfl, hvalue⟩ := quote_append_inj (cons.inj h).2
    rw [cons_append, cons_append, append_assoc, append_assoc] at hvalue
    obtain ⟨rfl, hfields⟩ := stringify_append_inj v v' _ _ (ends_stringifyFields fs r)
      (ends_stringifyFields gs r') (cons.inj hvalue).2
    obtain ⟨rfl, hrest⟩ := stringifyFields_append_inj fs gs r r' hfields
    exact ⟨rfl, hrest⟩

end

/-- Different values have different texts. -/
theorem stringify_injective (h : v.stringify = w.stringify) : v = w := by
  have hends : Ends [] := by simp [Ends]
  exact (stringify_append_inj v w [] [] hends hends (by rw [h])).1

end JsonValue

end ContextDesk.Lib
