import Mathlib.Data.Nat.Digits.Lemmas
import ContextDesk.Lib.JsonText

/-!
# Reading JSON text

`JSON.parse`, with the numbers left to a `Doubles`. A repeated key keeps its place and takes the
last value, and an object lists the keys that are array indices first, by number. The text of a
value is read back as the value, whatever follows it (`parseValue_stringify`).
-/

open List

namespace ContextDesk.Lib

/-! ## Numbers -/

/-- The rest after the digits at the front, if there is one. -/
def skipDigits (s : JsString) : Option JsString :=
  let rest := s.dropWhile fun u => 48 ≤ u && u ≤ 57
  if rest.length < s.length then some rest else none

def skipMinus : JsString → JsString
  | 45 :: s => s
  | s => s

def skipSign : JsString → JsString
  | 43 :: s => s
  | 45 :: s => s
  | s => s

/-- The rest after `0` or after digits that begin with another one. -/
def skipInteger : JsString → Option JsString
  | 48 :: s => some s
  | s => skipDigits s

def skipFraction : JsString → Option JsString
  | 46 :: s => skipDigits s
  | s => some s

def skipExponent : JsString → Option JsString
  | 69 :: s => skipDigits (skipSign s)
  | 101 :: s => skipDigits (skipSign s)
  | s => some s

/-- `-?(0|[1-9]\d*)(\.\d+)?([eE][+-]?\d+)?`. -/
def isLiteral (s : JsString) : Bool :=
  (((skipInteger (skipMinus s)).bind skipFraction).bind skipExponent) == some []

variable {n : Nat}

theorem exists_lead_decimal (h : 0 < n) : ∃ u s, (JsonText.decimal n).text = u :: s ∧ u ≠ 48 := by
  induction n using Nat.strong_induction_on with
  | h n ih =>
    show ∃ u s, (Nat.toDigits 10 n).map JsonText.digitUnit = u :: s ∧ u ≠ 48
    by_cases hn : n < 10
    · have hall : ∀ k < 10, 0 < k → JsonText.digitUnit k.digitChar ≠ 48 := by decide
      rw [Nat.toDigits_of_lt_base hn]
      exact ⟨_, [], rfl, hall n hn h⟩
    · obtain ⟨u, s, htext, hu⟩ := ih (n / 10) (by omega) (by omega)
      rw [Nat.toDigits_of_base_le (by decide) (by omega), map_append]
      refine ⟨u, s ++ [JsonText.digitUnit (n % 10).digitChar], ?_, hu⟩
      exact congrArg (· ++ [JsonText.digitUnit (n % 10).digitChar]) htext

theorem digits_decimal {u : UInt16} (h : u ∈ (JsonText.decimal n).text) :
    (48 ≤ u && u ≤ 57) = true := by
  obtain ⟨c, hc, rfl⟩ := mem_map.mp h
  have hall : ∀ k < 58, 48 ≤ k → (48 ≤ UInt16.ofNat k && UInt16.ofNat k ≤ 57) = true := by decide
  obtain ⟨hlow, hhigh⟩ := JsonText.digit_range hc
  exact hall c.toNat (by omega) hlow

theorem isLiteral_decimal (n : Nat) : isLiteral (JsonText.decimal n).text = true := by
  rcases Nat.eq_zero_or_pos n with rfl | hn
  · decide
  obtain ⟨u, s, htext, hu⟩ := exists_lead_decimal hn
  have hdigits : ∀ w ∈ u :: s, (48 ≤ w && w ≤ 57) = true := fun w hw =>
    digits_decimal (htext ▸ hw)
  have hminus : skipMinus (u :: s) = u :: s := by
    have hne : u ≠ 45 := by
      rintro rfl
      exact absurd (hdigits 45 mem_cons_self) (by decide)
    unfold skipMinus
    split
    · next heq => exact absurd (cons.inj heq).1 hne
    · rfl
  have hinteger : skipInteger (u :: s) = some [] := by
    unfold skipInteger
    split
    · next heq => exact absurd (cons.inj heq).1 hu
    · have hrest : ((u :: s).dropWhile fun w => 48 ≤ w && w ≤ 57) = [] :=
        dropWhile_eq_nil_iff.mpr hdigits
      rw [skipDigits, hrest]
      rfl
  rw [htext, isLiteral, hminus, hinteger]
  rfl

/-- The numbers of the language, as far as JSON reads and writes them. -/
structure Doubles where
  Number : Type
  /-- The number of a literal, which may be too large to be finite. -/
  read : NumberText → Number
  /-- The text of a finite number. -/
  print : Number → Option NumberText
  /-- `===`. -/
  same : Number → Number → Bool
  print_literal : ∀ {x t}, print x = some t → isLiteral t.text = true
  print_safe : ∀ n < 2 ^ 53, print (read (JsonText.decimal n)) = some (JsonText.decimal n)
  print_read : ∀ {x t}, print x = some t → print (read t) = some t
  same_comm : ∀ x y, same x y = same y x
  same_iff : ∀ {x t}, print x = some t → ∀ y, same x y = true ↔ print y = some t

/-! ## Values -/

inductive ParsedJson (N : Type) where
  | null
  | bool (b : Bool)
  | number (n : N)
  | string (s : JsString)
  | array (items : List (ParsedJson N))
  | object (fields : List (JsString × ParsedJson N))

/-- The number of a key that is an array index. -/
def arrayIndex (key : JsString) : Option Nat :=
  let n := key.foldl (fun n u => 10 * n + (u.toNat - 48)) 0
  if key ≠ [] ∧ key.all (fun u => 48 ≤ u && u ≤ 57) ∧ (key.head? = some 48 → key.length = 1) ∧
      n < 2 ^ 32 - 1 then some n
  else none

/-- The key of an array index. -/
def indexKey (n : Nat) : JsString :=
  if n = 0 then [48] else ((Nat.digits 10 n).map fun d => UInt16.ofNat (d + 48)).reverse

theorem foldl_digits (s : JsString) : s.foldl (fun n u => 10 * n + (u.toNat - 48)) 0 =
    Nat.ofDigits 10 (s.reverse.map fun u => u.toNat - 48) := by
  rw [Nat.ofDigits_eq_foldr, foldr_map, foldr_reverse]
  simp only [Nat.cast_id]
  congr 1
  funext n u
  omega

theorem eq_indexKey {key : JsString} (h : arrayIndex key = some n) : key = indexKey n := by
  rw [arrayIndex, Option.ite_none_right_eq_some] at h
  obtain ⟨⟨hne, hdigits, hzero, -⟩, hn⟩ := h
  rw [Option.some.injEq, foldl_digits] at hn
  rw [all_eq_true] at hdigits
  obtain ⟨u, s, rfl⟩ := exists_cons_of_ne_nil hne
  have hrange : ∀ w ∈ u :: s, 48 ≤ w.toNat ∧ w.toNat ≤ 57 := fun w hw => by
    have := hdigits w hw
    rwa [Bool.and_eq_true, decide_eq_true_eq, decide_eq_true_eq] at this
  by_cases hu : u = 48
  · rw [hu] at hzero hn ⊢
    have hs : s = [] := by simpa using hzero rfl
    rw [hs, reverse_singleton, map_singleton, Nat.ofDigits_singleton] at hn
    rw [hs, ← hn]
    rfl
  have hu' : u.toNat ≠ 48 := fun heq => hu (UInt16.toNat_inj.mp heq)
  have hhead := hrange u mem_cons_self
  have hlist : Nat.digits 10 n = (u :: s).reverse.map fun w => w.toNat - 48 := by
    rw [← hn]
    refine Nat.digits_ofDigits 10 (by decide) _ ?_ ?_
    · intro d hd
      obtain ⟨w, hw, rfl⟩ := mem_map.mp hd
      have := hrange w (mem_reverse.mp hw)
      omega
    · intro _
      simp only [reverse_cons, map_append, map_cons, map_nil,
        getLast_append_singleton]
      omega
  have hn0 : n ≠ 0 := by
    rintro rfl
    simp at hlist
  rw [indexKey, if_neg hn0, hlist, map_map, ← map_reverse, reverse_reverse]
  refine (map_id _).symm.trans (map_congr_left fun w hw => ?_)
  have := hrange w hw
  show w = UInt16.ofNat (w.toNat - 48 + 48)
  rw [Nat.sub_add_cancel this.1, UInt16.ofNat_toNat]

section

variable {α : Type}

/-- Adds a member where its object lists it. -/
def placeMember (key : JsString) (value : α) (members : List (JsString × α)) :
    List (JsString × α) :=
  match arrayIndex key with
  | none => members ++ [(key, value)]
  | some n =>
    let before := fun member : JsString × α => (arrayIndex member.1).any (· < n)
    members.takeWhile before ++ (key, value) :: members.dropWhile before

/-- Sets an own property. -/
def setMember (key : JsString) (value : α) (members : List (JsString × α)) : List (JsString × α) :=
  if key ∈ members.map Prod.fst then
    members.map fun member => if member.1 = key then (key, value) else member
  else placeMember key value members

/-- The members of an object that is made of the pairs of a text. -/
def ofPairs (pairs : List (JsString × α)) : List (JsString × α) :=
  pairs.foldl (fun members pair => setMember pair.1 pair.2 members) []

theorem placeMember_perm (key : JsString) (value : α) (members : List (JsString × α)) :
    (placeMember key value members).Perm ((key, value) :: members) := by
  unfold placeMember
  split
  · exact perm_append_singleton _ _
  · refine perm_middle.trans (.cons _ ?_)
    rw [takeWhile_append_dropWhile]

/-- The value of a member, if the object has it. -/
def memberOf (members : List (JsString × α)) (key : JsString) : Option α :=
  (members.find? fun member => member.1 = key).map Prod.snd

theorem foldl_setMember_perm {pairs members : List (JsString × α)}
    (h : ((members ++ pairs).map Prod.fst).Nodup) :
    (pairs.foldl (fun members pair => setMember pair.1 pair.2 members) members).Perm
      (members ++ pairs) := by
  induction pairs generalizing members with
  | nil => rw [append_nil]; rfl
  | cons pair pairs ih =>
    obtain ⟨key, value⟩ := pair
    have hmiddle : (members ++ (key, value) :: pairs).Perm ((key, value) :: (members ++ pairs)) :=
      perm_middle
    have hnew : key ∉ members.map Prod.fst := by
      have hnodup := (hmiddle.map Prod.fst).nodup_iff.mp h
      rw [map_cons, nodup_cons, map_append, mem_append] at hnodup
      exact fun hmem => hnodup.1 (.inl hmem)
    have hplace := placeMember_perm key value members
    rw [foldl_cons, setMember, if_neg hnew]
    have hperm : (placeMember key value members ++ pairs).Perm (members ++ (key, value) :: pairs) :=
      (hplace.append_right pairs).trans hmiddle.symm
    exact (ih ((hperm.map Prod.fst).nodup_iff.mpr h)).trans hperm

variable {pairs : List (JsString × α)}

/-- Where no key is repeated, the members are the pairs. -/
theorem ofPairs_perm (h : (pairs.map Prod.fst).Nodup) :
    (ofPairs pairs).Perm pairs := @foldl_setMember_perm α pairs [] h

/-- Names that are no array indices stay where they are. -/
theorem ofPairs_of_names (h : (pairs.map Prod.fst).Nodup)
    (hnames : ∀ pair ∈ pairs, arrayIndex pair.1 = none) : ofPairs pairs = pairs := by
  have hrun : ∀ members : List (JsString × α), ((members ++ pairs).map Prod.fst).Nodup →
      pairs.foldl (fun members pair => setMember pair.1 pair.2 members) members =
        members ++ pairs := by
    clear h
    induction pairs with
    | nil => exact fun members _ => (append_nil members).symm
    | cons pair pairs ih =>
      intro members h
      have hassoc : members ++ pair :: pairs = members ++ [pair] ++ pairs := by simp
      have hnew : pair.1 ∉ members.map Prod.fst := by
        rw [map_append, map_cons] at h
        exact fun hmem => (nodup_append.mp h).2.2 _ hmem _ mem_cons_self rfl
      rw [hassoc] at h ⊢
      rw [foldl_cons, setMember, if_neg hnew, placeMember, hnames pair mem_cons_self]
      exact ih (fun other hother => hnames other (mem_cons_of_mem _ hother)) _ h
  exact hrun [] h

theorem nodup_setMember (key : JsString) (value : α) {members : List (JsString × α)}
    (h : (members.map Prod.fst).Nodup) : ((setMember key value members).map Prod.fst).Nodup := by
  unfold setMember
  split
  · rw [map_map]
    have hkeys : (Prod.fst ∘ fun member : JsString × α =>
        if member.1 = key then (key, value) else member) = Prod.fst := by
      funext member
      by_cases heq : member.1 = key <;> simp [heq]
    rwa [hkeys]
  · next hnew =>
    rw [((placeMember_perm key value members).map Prod.fst).nodup_iff, map_cons]
    exact nodup_cons.mpr ⟨hnew, h⟩

theorem nodup_ofPairs (pairs : List (JsString × α)) : ((ofPairs pairs).map Prod.fst).Nodup := by
  have hrun : ∀ members : List (JsString × α), (members.map Prod.fst).Nodup →
      ((pairs.foldl (fun members pair => setMember pair.1 pair.2 members) members).map
        Prod.fst).Nodup := by
    induction pairs with
    | nil => exact fun members h => h
    | cons pair pairs ih => exact fun members h => ih _ (nodup_setMember _ _ h)
  exact hrun [] nodup_nil

/-- A member of an object comes from a pair. -/
theorem mem_ofPairs {member : JsString × α} (h : member ∈ ofPairs pairs) : member ∈ pairs := by
  have hset : ∀ (pair : JsString × α) (members : List (JsString × α)) (member : JsString × α),
      member ∈ setMember pair.1 pair.2 members → member = pair ∨ member ∈ members := by
    intro pair members member hmem
    unfold setMember at hmem
    split at hmem
    · obtain ⟨old, hold, rfl⟩ := mem_map.mp hmem
      split
      · exact .inl rfl
      · exact .inr hold
    · exact mem_cons.mp ((placeMember_perm _ _ _).mem_iff.mp hmem)
  have hrun : ∀ members : List (JsString × α),
      member ∈ pairs.foldl (fun members pair => setMember pair.1 pair.2 members) members →
      member ∈ members ∨ member ∈ pairs := by
    clear h
    induction pairs with
    | nil => exact fun members h => .inl h
    | cons pair pairs ih =>
      intro members h
      rcases ih _ h with h | h
      · rcases hset _ _ _ h with rfl | h
        · exact .inr mem_cons_self
        · exact .inl h
      · exact .inr (mem_cons_of_mem _ h)
  exact (hrun [] h).resolve_left not_mem_nil

end

/-! ## Texts -/

def isJsonSpace (u : UInt16) : Bool := u == 0x20 || u == 9 || u == 10 || u == 13

def skipSpace (s : JsString) : JsString := s.dropWhile isJsonSpace

def isHexUnit (u : UInt16) : Bool :=
  (48 ≤ u && u ≤ 57) || (65 ≤ u && u ≤ 70) || (97 ≤ u && u ≤ 102)

/-- The value of a hexadecimal digit in either case. -/
def hexUnit (u : UInt16) : UInt16 := if u < 58 then u - 48 else if u < 71 then u - 55 else u - 87

/-- The units of the quoted text up to the closing quote, and the rest after it. -/
def parseUnits : JsString → Option (JsString × JsString)
  | [] => none
  | 0x22 :: s => some ([], s)
  | 0x5c :: 0x75 :: a :: b :: c :: d :: s =>
    if isHexUnit a && isHexUnit b && isHexUnit c && isHexUnit d then
      (parseUnits s).map fun (units, rest) =>
        ((hexUnit a * 0x1000 + hexUnit b * 0x100 + hexUnit c * 0x10 + hexUnit d) :: units, rest)
    else none
  | 0x5c :: u :: s =>
    let unit : Option UInt16 :=
      if u = 0x22 ∨ u = 0x5c ∨ u = 0x2f then some u
      else if u = 0x62 then some 8
      else if u = 0x66 then some 12
      else if u = 0x6e then some 10
      else if u = 0x72 then some 13
      else if u = 0x74 then some 9
      else none
    unit.bind fun v => (parseUnits s).map fun (units, rest) => (v :: units, rest)
  | u :: s => if u < 0x20 then none else (parseUnits s).map fun (units, rest) => (u :: units, rest)

variable (doubles : Doubles)

def beginsName (w : String) (s : JsString) : Bool := (JsString.ofString w).isPrefixOf s

/-- A literal name or a number. -/
def parseScalar (s : JsString) : Option (ParsedJson doubles.Number × JsString) :=
  if beginsName "null" s then some (.null, s.drop 4)
  else if beginsName "true" s then some (.bool true, s.drop 4)
  else if beginsName "false" s then some (.bool false, s.drop 5)
  else
    let token := s.takeWhile isNumberUnit
    if h : token ≠ [] ∧ isLiteral token = true then
      some (.number (doubles.read ⟨token, h.1, fun _ hu => mem_takeWhile_imp hu⟩),
        s.dropWhile isNumberUnit)
    else none

mutual

/-- A value, and the rest after it. The first argument bounds the depth. -/
def parseValue : Nat → JsString → Option (ParsedJson doubles.Number × JsString)
  | 0, _ => none
  | n + 1, s =>
    match skipSpace s with
    | 0x22 :: s => (parseUnits s).map fun (units, rest) => (.string units, rest)
    | 0x5b :: s =>
      match skipSpace s with
      | 0x5d :: rest => some (.array [], rest)
      | s => (parseItems n s).map fun (items, rest) => (.array items, rest)
    | 0x7b :: s =>
      match skipSpace s with
      | 0x7d :: rest => some (.object [], rest)
      | s => (parseMembers n s).map fun (pairs, rest) => (.object (ofPairs pairs), rest)
    | s => parseScalar doubles s

def parseItems : Nat → JsString → Option (List (ParsedJson doubles.Number) × JsString)
  | 0, _ => none
  | n + 1, s =>
    (parseValue n s).bind fun (item, s) =>
      match skipSpace s with
      | 0x2c :: s => (parseItems n s).map fun (items, rest) => (item :: items, rest)
      | 0x5d :: rest => some ([item], rest)
      | _ => none

def parseMembers : Nat → JsString →
    Option (List (JsString × ParsedJson doubles.Number) × JsString)
  | 0, _ => none
  | n + 1, s =>
    match skipSpace s with
    | 0x22 :: s =>
      (parseUnits s).bind fun (key, s) =>
        match skipSpace s with
        | 0x3a :: s =>
          (parseValue n s).bind fun (value, s) =>
            match skipSpace s with
            | 0x2c :: s => (parseMembers n s).map fun (pairs, rest) => ((key, value) :: pairs, rest)
            | 0x7d :: rest => some ([(key, value)], rest)
            | _ => none
        | _ => none
    | _ => none

end

/-- `JSON.parse`, `none` where it throws. -/
def jsonParse (s : JsString) : Option (ParsedJson doubles.Number) :=
  match parseValue doubles (s.length + 1) s with
  | some (value, rest) => if skipSpace rest = [] then some value else none
  | none => none

/-! ## Reading quoted texts -/

section

open JsonText

theorem parseUnits_self {u : UInt16} (hquote : u ≠ 0x22) (hslash : u ≠ 0x5c) (hlow : ¬ u < 0x20)
    (s : JsString) : parseUnits (u :: s) =
      (parseUnits s).map fun (units, rest) => (u :: units, rest) := by
  rw [parseUnits]
  · rw [if_neg hlow]
  · exact hquote
  · rintro _ _ _ _ _ rfl _
    exact hslash rfl
  · rintro _ _ rfl _
    exact hslash rfl

theorem hexUnit_hexDigit {n : UInt16} (h : n < 16) :
    isHexUnit (hexDigit n) = true ∧ hexUnit (hexDigit n) = n := by
  have hall : ∀ k < 16, isHexUnit (hexDigit (UInt16.ofNat k)) = true ∧
      hexUnit (hexDigit (UInt16.ofNat k)) = UInt16.ofNat k := by decide
  have := hall n.toNat (UInt16.lt_iff_toNat_lt.mp h)
  rwa [UInt16.ofNat_toNat] at this

theorem parseUnits_unicodeEscape (u : UInt16) (s : JsString) : parseUnits (unicodeEscape u ++ s) =
    (parseUnits s).map fun (units, rest) => (u :: units, rest) := by
  have hdigits : u / 0x1000 < 16 ∧ u / 0x100 % 0x10 < 16 ∧ u / 0x10 % 0x10 < 16 ∧ u % 0x10 < 16 := by
    simp only [UInt16.lt_iff_toNat_lt, UInt16.toNat_div, UInt16.toNat_mod, UInt16.reduceToNat]
    have := UInt16.toNat_lt u
    omega
  obtain ⟨ha, hb, hc, hd⟩ := hdigits
  have hvalue : u / 0x1000 * 0x1000 + u / 0x100 % 0x10 * 0x100 + u / 0x10 % 0x10 * 0x10 + u % 0x10 =
      u := by
    rw [← UInt16.toNat_inj]
    simp only [UInt16.toNat_add, UInt16.toNat_mul, UInt16.toNat_div, UInt16.toNat_mod,
      UInt16.reduceToNat]
    have := UInt16.toNat_lt u
    omega
  simp only [unicodeEscape, cons_append, nil_append, parseUnits, hexUnit_hexDigit ha,
    hexUnit_hexDigit hb, hexUnit_hexDigit hc, hexUnit_hexDigit hd, Bool.and_self, if_true, hvalue]

theorem parseUnits_quoteUnit (u : UInt16) (s : JsString) : parseUnits (quoteUnit u ++ s) =
    (parseUnits s).map fun (units, rest) => (u :: units, rest) := by
  unfold quoteUnit
  split_ifs with h h1 h2 h3 h4 h5 h6 h7
  · have hplain : u ≠ 0x22 ∧ u ≠ 0x5c ∧ ¬ u < 0x20 := by
      simp only [isPlainUnit, Bool.and_eq_true, decide_eq_true_eq, bne_iff_ne] at h
      rw [UInt16.lt_iff_toNat_lt, ← UInt16.toNat_inj.ne, ← UInt16.toNat_inj.ne]
      exact ⟨h.1.2, h.2, Nat.not_lt.mpr h.1.1.1⟩
    exact parseUnits_self hplain.1 hplain.2.1 hplain.2.2 s
  all_goals first
    | exact parseUnits_unicodeEscape u s
    | (subst_vars; simp [parseUnits])

theorem parseUnits_quoteUnits (s r : JsString) :
    parseUnits (quoteUnits s ++ 0x22 :: r) = some (s, r) := by
  induction s using quoteUnits.induct with
  | case1 => rw [quoteUnits, nil_append, parseUnits]
  | case2 u =>
    rw [quoteUnits, parseUnits_quoteUnit, parseUnits]
    rfl
  | case3 u v rest hpair ih =>
    rw [quoteUnits, if_pos hpair]
    simp only [isHighSurrogate, isLowSurrogate, Bool.and_eq_true, decide_eq_true_eq] at hpair
    have hself : ∀ w : UInt16, 0xd800 ≤ w.toNat → w ≠ 0x22 ∧ w ≠ 0x5c ∧ ¬ w < 0x20 := by
      intro w hw
      rw [UInt16.lt_iff_toNat_lt, ← UInt16.toNat_inj.ne, ← UInt16.toNat_inj.ne]
      simp only [UInt16.reduceToNat]
      omega
    obtain ⟨hu, hu', hu''⟩ := hself u hpair.1.1
    obtain ⟨hv, hv', hv''⟩ := hself v (Nat.le_trans (by decide) hpair.2.1)
    rw [cons_append, cons_append, parseUnits_self hu hu' hu'', parseUnits_self hv hv' hv'',
      ih]
    rfl
  | case4 u v rest hpair ih =>
    rw [quoteUnits, if_neg hpair, append_assoc, parseUnits_quoteUnit, ih]
    rfl

end

/-! ## Reading values -/

namespace JsonValue

mutual

/-- The value that the text of a value denotes. -/
def readBack : JsonValue → ParsedJson doubles.Number
  | null => .null
  | bool b => .bool b
  | number t => .number (doubles.read t)
  | string s => .string s
  | array items => .array (readItems items)
  | object fields => .object (ofPairs (readFields fields))

def readItems : List JsonValue → List (ParsedJson doubles.Number)
  | [] => []
  | v :: vs => readBack v :: readItems vs

def readFields : List (JsString × JsonValue) → List (JsString × ParsedJson doubles.Number)
  | [] => []
  | (k, v) :: fs => (k, readBack v) :: readFields fs

end

mutual

/-- The numbers are literals. -/
def Literals : JsonValue → Prop
  | number t => isLiteral t.text = true
  | array items => LiteralsItems items
  | object fields => LiteralsFields fields
  | null => True
  | bool _ => True
  | string _ => True

def LiteralsItems : List JsonValue → Prop
  | [] => True
  | v :: vs => Literals v ∧ LiteralsItems vs

def LiteralsFields : List (JsString × JsonValue) → Prop
  | [] => True
  | (_, v) :: fs => Literals v ∧ LiteralsFields fs

end

theorem literalsFields_iff {fs : List (JsString × JsonValue)} :
    LiteralsFields fs ↔ ∀ member ∈ fs, member.2.Literals := by
  induction fs with
  | nil => simp [LiteralsFields]
  | cons member fs ih => rw [LiteralsFields, ih, forall_mem_cons]

variable {u : UInt16}

theorem skipSpace_cons (h : isJsonSpace u = false) (s : JsString) :
    skipSpace (u :: s) = u :: s := by
  rw [skipSpace, dropWhile_cons, h]
  rfl

theorem isJsonSpace_number (h : isNumberUnit u = true) : isJsonSpace u = false := by
  cases hspace : isJsonSpace u with
  | false => rfl
  | true =>
    have hall : ∀ w ∈ [0x20, 9, 10, 13], isNumberUnit w = false := by simp [isNumberUnit]
    simp only [isJsonSpace, Bool.or_eq_true, beq_iff_eq] at hspace
    rw [hall u (by simpa [or_assoc] using hspace)] at h
    cases h

/-- The text of a value begins neither with a space nor like the end of an array. -/
theorem exists_start (v : JsonValue) :
    ∃ u t, v.stringify = u :: t ∧ isJsonSpace u = false ∧ u ≠ 0x5d := by
  cases v with
  | number t =>
    obtain ⟨u, s, htext⟩ := exists_cons_of_ne_nil t.nonempty
    have hu := t.units u (htext ▸ mem_cons_self)
    refine ⟨u, s, by rw [stringify, htext], isJsonSpace_number hu, ?_⟩
    rintro rfl
    exact absurd hu (by decide)
  | null => exact ⟨_, _, rfl, by decide, by decide⟩
  | bool b => cases b <;> exact ⟨_, _, rfl, by decide, by decide⟩
  | string s => exact ⟨_, _, rfl, by decide, by decide⟩
  | array items => cases items <;> exact ⟨_, _, by rw [stringify], by decide, by decide⟩
  | object fields =>
    rcases fields with _ | ⟨⟨k, v⟩, fs⟩ <;> exact ⟨_, _, by rw [stringify], by decide, by decide⟩

theorem skipSpace_stringify (v : JsonValue) (r : JsString) :
    skipSpace (v.stringify ++ r) = v.stringify ++ r := by
  obtain ⟨u, t, hv, hspace, -⟩ := exists_start v
  rw [hv, cons_append, skipSpace_cons hspace]

theorem quote_append (s r : JsString) :
    JsonText.quote s ++ r = 0x22 :: (JsonText.quoteUnits s ++ 0x22 :: r) := by
  simp [JsonText.quote]

variable {doubles}

/-! One step of the parser each. -/

variable {s t r : JsString} {n : Nat}

theorem parseValue_quote {units : JsString} (hs : skipSpace s = 0x22 :: t)
    (hunits : parseUnits t = some (units, r)) :
    parseValue doubles (n + 1) s = some (.string units, r) := by
  rw [parseValue, hs]
  simp only [hunits, Option.map_some]

theorem parseValue_bracket {items : List (ParsedJson doubles.Number)}
    (hs : skipSpace s = 0x5b :: u :: t) (hspace : isJsonSpace u = false) (hu : u ≠ 0x5d)
    (hitems : parseItems doubles n (u :: t) = some (items, r)) :
    parseValue doubles (n + 1) s = some (.array items, r) := by
  rw [parseValue, hs]
  simp only [skipSpace_cons hspace]
  split
  · next heq => exact absurd (cons.inj heq).1 hu
  · rw [hitems]
    rfl

theorem parseValue_brace {pairs : List (JsString × ParsedJson doubles.Number)}
    (hs : skipSpace s = 0x7b :: 0x22 :: t)
    (hpairs : parseMembers doubles n (0x22 :: t) = some (pairs, r)) :
    parseValue doubles (n + 1) s = some (.object (ofPairs pairs), r) := by
  rw [parseValue, hs]
  simp only [skipSpace_cons (u := 0x22) (by decide)]
  show (parseMembers doubles n (0x22 :: t)).map _ = _
  rw [hpairs]
  rfl

theorem parseItems_cons {item : ParsedJson doubles.Number}
    {items : List (ParsedJson doubles.Number)} (hitem : parseValue doubles n s = some (item, t))
    (hrest : (∃ t', t = 0x2c :: t' ∧ parseItems doubles n t' = some (items, r)) ∨
      (t = 0x5d :: r ∧ items = [])) : parseItems doubles (n + 1) s = some (item :: items, r) := by
  rw [parseItems, hitem, Option.bind_some]
  rcases hrest with ⟨t', rfl, hitems⟩ | ⟨rfl, rfl⟩
  · simp only [skipSpace_cons (u := 0x2c) (by decide), hitems, Option.map_some]
  · simp only [skipSpace_cons (u := 0x5d) (by decide)]

theorem parseMembers_cons {key : JsString} {value : ParsedJson doubles.Number}
    {pairs : List (JsString × ParsedJson doubles.Number)}
    (hvalue : parseValue doubles n s = some (value, t))
    (hrest : (∃ t', t = 0x2c :: t' ∧ parseMembers doubles n t' = some (pairs, r)) ∨
      (t = 0x7d :: r ∧ pairs = [])) :
    parseMembers doubles (n + 1) (JsonText.quote key ++ 0x3a :: s) =
      some ((key, value) :: pairs, r) := by
  rw [quote_append, parseMembers]
  simp only [skipSpace_cons (u := 0x22) (by decide), parseUnits_quoteUnits, Option.bind_some,
    skipSpace_cons (u := 0x3a) (by decide), hvalue]
  rcases hrest with ⟨t', rfl, hpairs⟩ | ⟨rfl, rfl⟩
  · simp only [skipSpace_cons (u := 0x2c) (by decide), hpairs, Option.map_some]
  · simp only [skipSpace_cons (u := 0x7d) (by decide)]

/-- A text that begins like a number is read as one. -/
theorem parseScalar_number {t : NumberText} (h : isLiteral t.text = true) (hr : Ends r) :
    parseScalar doubles (t.text ++ r) = some (.number (doubles.read t), r) := by
  have htake := takeWhile_number t.units hr
  have hdrop : (t.text ++ r).dropWhile isNumberUnit = r := by
    have := takeWhile_append_dropWhile (p := isNumberUnit) (l := t.text ++ r)
    rw [htake] at this
    exact append_cancel_left this
  obtain ⟨u, s, htext⟩ := exists_cons_of_ne_nil t.nonempty
  have hu := t.units u (htext ▸ mem_cons_self)
  have hname : ∀ w : String, (∃ c cs, JsString.ofString w = c :: cs ∧ isNumberUnit c = false) →
      beginsName w (t.text ++ r) = false := by
    rintro w ⟨c, cs, hw, hc⟩
    have hne : c ≠ u := by
      rintro rfl
      rw [hu] at hc
      cases hc
    rw [beginsName, hw, htext, cons_append, List.isPrefixOf]
    simp [hne]
  unfold parseScalar
  rw [hname "null" ⟨110, _, rfl, by decide⟩, hname "true" ⟨116, _, rfl, by decide⟩,
    hname "false" ⟨102, _, rfl, by decide⟩]
  simp only [Bool.false_eq_true, if_false, htake, hdrop]
  rw [dif_pos ⟨t.nonempty, h⟩]

theorem number_text_ne {t : NumberText} (hu : isNumberUnit u = false) (h : t.text ++ r = u :: s) :
    False := by
  obtain ⟨v, s', htext⟩ := exists_cons_of_ne_nil t.nonempty
  rw [htext, cons_append] at h
  have := t.units v (htext ▸ mem_cons_self)
  rw [(cons.inj h).1, hu] at this
  cases this

theorem one_le_stringifyItems (vs : List JsonValue) : 1 ≤ (stringifyItems vs).length := by
  cases vs <;> simp [stringifyItems]

theorem one_le_stringifyFields (fs : List (JsString × JsonValue)) :
    1 ≤ (stringifyFields fs).length := by
  rcases fs with _ | ⟨⟨k, v⟩, fs⟩ <;> simp [stringifyFields]

mutual

/-- What `JSON.stringify` writes is read as the value, whatever follows it. -/
theorem parseValue_stringify : ∀ (v : JsonValue) (n : Nat) (r : JsString), Literals v → Ends r →
    v.stringify.length < n → parseValue doubles n (v.stringify ++ r) = some (v.readBack doubles, r)
  | v, 0, r, _, _, hn => absurd hn (Nat.not_lt_zero _)
  | null, n + 1, r, _, _, _ => by
    rw [parseValue, skipSpace_stringify]
    rfl
  | bool b, n + 1, r, _, _, _ => by
    rw [parseValue, skipSpace_stringify]
    cases b <;> rfl
  | number t, n + 1, r, h, hr, _ => by
    rw [parseValue, skipSpace_stringify, readBack, ← parseScalar_number h hr, stringify]
    split
    · next heq => exact (number_text_ne (by decide) heq).elim
    · next heq => exact (number_text_ne (by decide) heq).elim
    · next heq => exact (number_text_ne (by decide) heq).elim
    · rfl
  | string s, n + 1, r, _, _, _ => by
    refine parseValue_quote ?_ (parseUnits_quoteUnits s r)
    rw [skipSpace_stringify, stringify, quote_append]
  | array [], n + 1, r, _, _, _ => by
    rw [parseValue, skipSpace_stringify]
    rfl
  | array (v :: vs), n + 1, r, h, hr, hn => by
    rw [stringify, length_cons, length_append] at hn
    have hitems := parseItems_stringify v vs n r h.1 h.2 (by omega)
    obtain ⟨u, t, hv, hspace, hu⟩ := exists_start v
    rw [hv, cons_append] at hitems
    refine parseValue_bracket ?_ hspace hu hitems
    rw [skipSpace_stringify, stringify, hv]
    simp only [cons_append, append_assoc]
  | object [], n + 1, r, _, _, _ => by
    rw [parseValue, skipSpace_stringify]
    rfl
  | object ((k, v) :: fs), n + 1, r, h, hr, hn => by
    rw [stringify, length_cons, length_append, length_cons, length_append] at hn
    have hmembers := parseMembers_stringify k v fs n r h.1 h.2 (by omega)
    rw [quote_append] at hmembers
    refine parseValue_brace ?_ hmembers
    rw [skipSpace_stringify, stringify, ← quote_append]
    simp only [cons_append, append_assoc]

theorem parseItems_stringify : ∀ (v : JsonValue) (vs : List JsonValue) (n : Nat) (r : JsString),
    Literals v → LiteralsItems vs → v.stringify.length + (stringifyItems vs).length < n →
    parseItems doubles n (v.stringify ++ (stringifyItems vs ++ r)) =
      some (v.readBack doubles :: readItems doubles vs, r)
  | v, vs, 0, r, _, _, hn => absurd hn (Nat.not_lt_zero _)
  | v, vs, n + 1, r, hv, hvs, hn => by
    have := one_le_stringifyItems vs
    refine parseItems_cons
      (parseValue_stringify v n _ hv (ends_stringifyItems vs r) (by omega)) ?_
    cases vs with
    | nil => exact .inr ⟨rfl, rfl⟩
    | cons w ws =>
      rw [stringifyItems, length_cons, length_append] at hn
      refine .inl ⟨w.stringify ++ (stringifyItems ws ++ r), ?_,
        parseItems_stringify w ws n r hvs.1 hvs.2 (by omega)⟩
      rw [stringifyItems, cons_append, append_assoc]

theorem parseMembers_stringify : ∀ (k : JsString) (v : JsonValue)
    (fs : List (JsString × JsonValue)) (n : Nat) (r : JsString), Literals v → LiteralsFields fs →
    1 + v.stringify.length + (stringifyFields fs).length < n →
    parseMembers doubles n (JsonText.quote k ++ 0x3a :: (v.stringify ++ (stringifyFields fs ++ r))) =
      some ((k, v.readBack doubles) :: readFields doubles fs, r)
  | k, v, fs, 0, r, _, _, hn => absurd hn (Nat.not_lt_zero _)
  | k, v, fs, n + 1, r, hv, hfs, hn => by
    have := one_le_stringifyFields fs
    refine parseMembers_cons
      (parseValue_stringify v n _ hv (ends_stringifyFields fs r) (by omega)) ?_
    rcases fs with _ | ⟨⟨k', w⟩, gs⟩
    · exact .inr ⟨rfl, rfl⟩
    · rw [stringifyFields, length_cons, length_append, length_cons,
        length_append] at hn
      refine .inl ⟨_, ?_, parseMembers_stringify k' w gs n r hfs.1 hfs.2 (by omega)⟩
      rw [stringifyFields]
      simp only [cons_append, append_assoc]

end

/-- The text of a value is parsed as what the value reads as. -/
theorem jsonParse_stringify {v : JsonValue} (h : Literals v) :
    jsonParse doubles v.stringify = some (v.readBack doubles) := by
  have hvalue := @parseValue_stringify doubles v (v.stringify.length + 1) [] h (by simp [Ends])
    (Nat.lt_succ_self _)
  rw [append_nil] at hvalue
  rw [jsonParse, hvalue]
  rfl

end JsonValue

/-! ## Small integers -/

/-- Integers that are exact are the same only if they are equal. -/
theorem Doubles.same_decimal {m : Nat} (hm : m < 2 ^ 53) (hn : n < 2 ^ 53) :
    doubles.same (doubles.read (JsonText.decimal m)) (doubles.read (JsonText.decimal n)) = true ↔
      m = n := by
  rw [doubles.same_iff (doubles.print_safe m hm), doubles.print_safe n hn, Option.some.injEq]
  exact ⟨fun h => (JsonText.decimal_injective h).symm, fun h => h ▸ rfl⟩

/-! ## Values up to the order of members -/

namespace ParsedJson

section

variable {doubles}

mutual

/-- What `JSON.stringify` writes: a number that is not finite becomes null. -/
def written : ParsedJson doubles.Number → JsonValue
  | null => .null
  | bool b => .bool b
  | number x => (doubles.print x).elim .null .number
  | string s => .string s
  | array items => .array (writtenItems items)
  | object fields => .object (writtenFields fields)

def writtenItems : List (ParsedJson doubles.Number) → List JsonValue
  | [] => []
  | v :: vs => written v :: writtenItems vs

def writtenFields : List (JsString × ParsedJson doubles.Number) → List (JsString × JsonValue)
  | [] => []
  | (k, v) :: fs => (k, written v) :: writtenFields fs

end

mutual

/-- Equal up to the order of members, with the numbers compared by `===`. -/
inductive Same : ParsedJson doubles.Number → ParsedJson doubles.Number → Prop
  | null : Same null null
  | bool (b : Bool) : Same (bool b) (bool b)
  | number {x y : doubles.Number} (h : doubles.same x y = true) : Same (number x) (number y)
  | string (s : JsString) : Same (string s) (string s)
  | array {vs ws : List (ParsedJson doubles.Number)} (h : SameItems vs ws) :
      Same (array vs) (array ws)
  | object {fs gs hs : List (JsString × ParsedJson doubles.Number)} (h : SameFields fs gs)
      (perm : gs.Perm hs) : Same (object fs) (object hs)

inductive SameItems : List (ParsedJson doubles.Number) → List (ParsedJson doubles.Number) → Prop
  | nil : SameItems [] []
  | cons {v w : ParsedJson doubles.Number} {vs ws : List (ParsedJson doubles.Number)}
      (head : Same v w) (tail : SameItems vs ws) : SameItems (v :: vs) (w :: ws)

inductive SameFields : List (JsString × ParsedJson doubles.Number) →
    List (JsString × ParsedJson doubles.Number) → Prop
  | nil : SameFields [] []
  | cons {k : JsString} {v w : ParsedJson doubles.Number}
      {fs gs : List (JsString × ParsedJson doubles.Number)} (head : Same v w)
      (tail : SameFields fs gs) : SameFields ((k, v) :: fs) ((k, w) :: gs)

end

mutual

/-- No object has a key twice. -/
def DistinctKeys : ParsedJson doubles.Number → Prop
  | array items => DistinctKeysItems items
  | object fields => (fields.map Prod.fst).Nodup ∧ DistinctKeysFields fields
  | null => True
  | bool _ => True
  | number _ => True
  | string _ => True

def DistinctKeysItems : List (ParsedJson doubles.Number) → Prop
  | [] => True
  | v :: vs => DistinctKeys v ∧ DistinctKeysItems vs

def DistinctKeysFields : List (JsString × ParsedJson doubles.Number) → Prop
  | [] => True
  | (_, v) :: fs => DistinctKeys v ∧ DistinctKeysFields fs

end

theorem distinctKeysFields_iff {fs : List (JsString × ParsedJson doubles.Number)} :
    DistinctKeysFields fs ↔ ∀ member ∈ fs, member.2.DistinctKeys := by
  induction fs with
  | nil => simp [DistinctKeysFields]
  | cons member fs ih => rw [DistinctKeysFields, ih, forall_mem_cons]

theorem distinctKeys_ofPairs {pairs : List (JsString × ParsedJson doubles.Number)}
    (h : DistinctKeysFields pairs) : (object (ofPairs pairs)).DistinctKeys :=
  ⟨nodup_ofPairs pairs,
    distinctKeysFields_iff.mpr fun _ hmem => distinctKeysFields_iff.mp h _ (mem_ofPairs hmem)⟩

theorem parseScalar_distinctKeys {s r : JsString} {v : ParsedJson doubles.Number}
    (h : parseScalar doubles s = some (v, r)) : v.DistinctKeys := by
  rw [parseScalar] at h
  simp only at h
  split_ifs at h <;> cases h <;> trivial

/-- The parser builds no object with a key twice, whatever its depth. -/
theorem parse_distinctKeys (n : Nat) :
    (∀ {s r v}, parseValue doubles n s = some (v, r) → v.DistinctKeys) ∧
    (∀ {s r vs}, parseItems doubles n s = some (vs, r) → DistinctKeysItems vs) ∧
    (∀ {s r fs}, parseMembers doubles n s = some (fs, r) → DistinctKeysFields fs) := by
  induction n with
  | zero => refine ⟨fun h => ?_, fun h => ?_, fun h => ?_⟩ <;> cases h
  | succ n ih =>
    obtain ⟨hvalue, hitems, hmembers⟩ := ih
    refine ⟨fun {s r v} h => ?_, fun {s r vs} h => ?_, fun {s r fs} h => ?_⟩
    · rw [parseValue] at h
      split at h
      · obtain ⟨_, -, h⟩ := Option.map_eq_some_iff.mp h
        cases h
        trivial
      · split at h
        · cases h
          trivial
        · obtain ⟨_, hp, h⟩ := Option.map_eq_some_iff.mp h
          cases h
          exact hitems hp
      · split at h
        · cases h
          exact ⟨nodup_nil, trivial⟩
        · obtain ⟨_, hp, h⟩ := Option.map_eq_some_iff.mp h
          cases h
          exact distinctKeys_ofPairs (hmembers hp)
      · exact parseScalar_distinctKeys h
    · rw [parseItems] at h
      obtain ⟨⟨item, t⟩, hitem, h⟩ := Option.bind_eq_some_iff.mp h
      simp only at h
      split at h
      · obtain ⟨_, hp, h⟩ := Option.map_eq_some_iff.mp h
        cases h
        exact ⟨hvalue hitem, hitems hp⟩
      · cases h
        exact ⟨hvalue hitem, trivial⟩
      · cases h
    · rw [parseMembers] at h
      split at h
      · obtain ⟨⟨key, t⟩, -, h⟩ := Option.bind_eq_some_iff.mp h
        simp only at h
        split at h
        · obtain ⟨⟨value, t⟩, hp, h⟩ := Option.bind_eq_some_iff.mp h
          simp only at h
          split at h
          · obtain ⟨_, hrest, h⟩ := Option.map_eq_some_iff.mp h
            cases h
            exact ⟨hvalue hp, hmembers hrest⟩
          · cases h
            exact ⟨hvalue hp, trivial⟩
          · cases h
        · cases h
      · cases h

theorem jsonParse_distinctKeys {s : JsString} {v : ParsedJson doubles.Number}
    (h : jsonParse doubles s = some v) : v.DistinctKeys := by
  unfold jsonParse at h
  split at h
  · next hparse =>
    rw [Option.ite_none_right_eq_some, Option.some.injEq] at h
    exact h.2 ▸ (parse_distinctKeys _).1 hparse
  · cases h

end

end ParsedJson

end ContextDesk.Lib
