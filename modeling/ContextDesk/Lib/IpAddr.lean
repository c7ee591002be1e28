import ContextDesk.Lib.Text

/-!
# Internet addresses

`Ipv4Addr` and `Ipv6Addr` with the range predicates and the text form of the standard library of
the source. `parseIp` is `IpAddr::from_str`: a reader gives the value and the rest of the text, or
nothing. `parseIp_text` reads a printed IPv4 address back; `parseIp_chars` says which characters a
text that is an address can have.
-/

open List

namespace ContextDesk.Lib

structure Ipv4Addr where
  a : UInt8
  b : UInt8
  c : UInt8
  d : UInt8
  deriving DecidableEq

structure Ipv6Addr where
  s0 : UInt16
  s1 : UInt16
  s2 : UInt16
  s3 : UInt16
  s4 : UInt16
  s5 : UInt16
  s6 : UInt16
  s7 : UInt16
  deriving DecidableEq

inductive IpAddr where
  | v4 (ip : Ipv4Addr)
  | v6 (ip : Ipv6Addr)
  deriving DecidableEq

/-! ## Ranges -/

namespace Ipv4Addr

def localhost : Ipv4Addr := ⟨127, 0, 0, 1⟩

/-- `127.0.0.0/8`. -/
def isLoopback (ip : Ipv4Addr) : Bool := ip.a = 127

def isUnspecified (ip : Ipv4Addr) : Bool := ip = ⟨0, 0, 0, 0⟩

def isBroadcast (ip : Ipv4Addr) : Bool := ip = ⟨255, 255, 255, 255⟩

/-- `169.254.0.0/16`. -/
def isLinkLocal (ip : Ipv4Addr) : Bool := ip.a = 169 && ip.b = 254

/-- `10.0.0.0/8`, `172.16.0.0/12` and `192.168.0.0/16`. -/
def isPrivate (ip : Ipv4Addr) : Bool :=
  ip.a = 10 || (ip.a = 172 && 16 ≤ ip.b && ip.b ≤ 31) || (ip.a = 192 && ip.b = 168)

/-- The decimal digits of an octet. -/
def octetText (o : UInt8) : List Char := Nat.toDigits 10 o.toNat

/-- The dotted text of an address. -/
def text (ip : Ipv4Addr) : List Char :=
  octetText ip.a ++ '.' :: octetText ip.b ++ '.' :: octetText ip.c ++ '.' :: octetText ip.d

end Ipv4Addr

namespace Ipv6Addr

def isLoopback (ip : Ipv6Addr) : Bool := ip = ⟨0, 0, 0, 0, 0, 0, 0, 1⟩

def isUnspecified (ip : Ipv6Addr) : Bool := ip = ⟨0, 0, 0, 0, 0, 0, 0, 0⟩

/-- `fc00::/7`. -/
def isUniqueLocal (ip : Ipv6Addr) : Bool := 0xfc00 ≤ ip.s0 && ip.s0 ≤ 0xfdff

/-- The IPv4 address in the last two segments. -/
def lastFour (ip : Ipv6Addr) : Ipv4Addr :=
  ⟨(ip.s6 >>> 8).toUInt8, ip.s6.toUInt8, (ip.s7 >>> 8).toUInt8, ip.s7.toUInt8⟩

/-- `::ffff:a.b.c.d`. -/
def toIpv4Mapped (ip : Ipv6Addr) : Option Ipv4Addr :=
  if ip.s0 = 0 && ip.s1 = 0 && ip.s2 = 0 && ip.s3 = 0 && ip.s4 = 0 && ip.s5 = 0xffff then
    some ip.lastFour
  else none

/-- `::ffff:a.b.c.d` or `::a.b.c.d`. -/
def toIpv4 (ip : Ipv6Addr) : Option Ipv4Addr :=
  if ip.s0 = 0 && ip.s1 = 0 && ip.s2 = 0 && ip.s3 = 0 && ip.s4 = 0 &&
      (ip.s5 = 0 || ip.s5 = 0xffff) then
    some ip.lastFour
  else none

def segments (ip : Ipv6Addr) : List UInt16 :=
  [ip.s0, ip.s1, ip.s2, ip.s3, ip.s4, ip.s5, ip.s6, ip.s7]

/-- The first longest run of zero segments: its start and length. -/
def zeroes : List UInt16 → Nat → Nat × Nat → Nat × Nat → Nat × Nat
  | [], _, _, longest => longest
  | s :: rest, i, current, longest =>
    if s = 0 then
      let current := if current.2 = 0 then (i, 1) else (current.1, current.2 + 1)
      zeroes rest (i + 1) current (if longest.2 < current.2 then current else longest)
    else zeroes rest (i + 1) (0, 0) longest

def groupsText (groups : List UInt16) : List Char :=
  [':'].intercalate (groups.map fun s => Nat.toDigits 16 s.toNat)

/-- The text of an address, with its longest run of zero segments left out. -/
def text (ip : Ipv6Addr) : List Char :=
  match ip.toIpv4Mapped with
  | some v4 => "::ffff:".toList ++ v4.text
  | none =>
    let (start, len) := zeroes ip.segments 0 (0, 0) (0, 0)
    if 1 < len then
      groupsText (ip.segments.take start) ++ "::".toList ++
        groupsText (ip.segments.drop (start + len))
    else groupsText ip.segments

end Ipv6Addr

/-! ## Reading addresses -/

namespace IpText

/-- A reader of the front of a text: the value and what follows it. -/
abbrev Reader (α : Type) := List Char → Option (α × List Char)

/-- The value of a hexadecimal digit. -/
def hexValue (c : Char) : Option Nat :=
  let n := c.toNat
  if 48 ≤ n ∧ n ≤ 57 then some (n - 48)
  else if 97 ≤ n ∧ n ≤ 102 then some (n - 87)
  else if 65 ≤ n ∧ n ≤ 70 then some (n - 55)
  else none

/-- `char::to_digit` for a radix up to sixteen. -/
def digitValue (radix : Nat) (c : Char) : Option Nat := (hexValue c).filter (· < radix)

def valueOf (radix : Nat) (digits : List Char) : Nat :=
  digits.foldl (fun n c => n * radix + (digitValue radix c).getD 0) 0

def readGivenChar (c : Char) : Reader Unit
  | [] => none
  | d :: l => if d = c then some ((), l) else none

/-- A number below `limit` of at most `maxDigits` digits. -/
def readNumber (radix maxDigits limit : Nat) (allowZeroPrefix : Bool) : Reader Nat := fun l =>
  let digits := l.takeWhile fun c => (digitValue radix c).isSome
  if maxDigits < digits.length || digits.isEmpty then none
  else if !allowZeroPrefix && l.head? = some '0' && 1 < digits.length then none
  else if valueOf radix digits < limit then some (valueOf radix digits, l.drop digits.length)
  else none

/-- The separator before every item but the first. -/
def readSeparator {α : Type} (sep : Char) (index : Nat) (inner : Reader α) : Reader α := fun l =>
  if 0 < index then (readGivenChar sep l).bind fun (_, l) => inner l else inner l

def readOctet (index : Nat) : Reader Nat := readSeparator '.' index (readNumber 10 3 256 false)

def readIpv4Addr : Reader Ipv4Addr := fun l => do
  let (a, l) ← readOctet 0 l
  let (b, l) ← readOctet 1 l
  let (c, l) ← readOctet 2 l
  let (d, l) ← readOctet 3 l
  pure (⟨a.toUInt8, b.toUInt8, c.toUInt8, d.toUInt8⟩, l)

/-- Up to `limit` groups of an IPv6 address from the group `i` on; the flag tells of an IPv4
address at their end. -/
def readGroups (limit : Nat) : Nat → Nat → List Char → List UInt16 × Bool × List Char
  | 0, _, l => ([], false, l)
  | fuel + 1, i, l =>
    let embedded := if i + 1 < limit then readSeparator ':' i readIpv4Addr l else none
    match embedded with
    | some (v4, l) =>
      ([v4.a.toUInt16 * 256 + v4.b.toUInt16, v4.c.toUInt16 * 256 + v4.d.toUInt16], true, l)
    | none =>
      match readSeparator ':' i (readNumber 16 4 65536 true) l with
      | none => ([], false, l)
      | some (g, l) =>
        let (more, v4, l) := readGroups limit fuel (i + 1) l
        (g.toUInt16 :: more, v4, l)

def ofSegments : List UInt16 → Option Ipv6Addr
  | [s0, s1, s2, s3, s4, s5, s6, s7] => some ⟨s0, s1, s2, s3, s4, s5, s6, s7⟩
  | _ => none

def readIpv6Addr : Reader Ipv6Addr := fun l =>
  let (head, headV4, l) := readGroups 8 8 0 l
  if head.length = 8 then (ofSegments head).map (·, l)
  else if headV4 then none
  else do
    let (_, l) ← readGivenChar ':' l
    let (_, l) ← readGivenChar ':' l
    let limit := 8 - (head.length + 1)
    let (tail, _, l) := readGroups limit limit 0 l
    let gap := replicate (8 - head.length - tail.length) 0
    (ofSegments (head ++ gap ++ tail)).map (·, l)

end IpText

open IpText in
/-- `IpAddr::from_str`. -/
def parseIp (l : List Char) : Option IpAddr :=
  match readIpv4Addr l with
  | some (ip, rest) => if rest = [] then some (.v4 ip) else none
  | none =>
    match readIpv6Addr l with
    | some (ip, rest) => if rest = [] then some (.v6 ip) else none
    | none => none

/-! ## What an address can be written with -/

namespace IpText

/-- A hexadecimal digit, a dot or a colon. -/
def addressChar (c : Char) : Bool := (hexValue c).isSome || c == '.' || c == ':'

/-- Every character a reader takes is a character of an address. -/
def Takes {α : Type} (r : Reader α) : Prop :=
  ∀ l v rest, r l = some (v, rest) → ∃ used, l = used ++ rest ∧ used.all addressChar = true

theorem digit_addressChar {radix : Nat} {c : Char} (h : (digitValue radix c).isSome = true) :
    addressChar c = true := by
  unfold addressChar
  unfold digitValue at h
  cases hv : hexValue c with
  | none => rw [hv] at h; cases h
  | some v => rfl

theorem takes_givenChar {c : Char} (hc : addressChar c = true) : Takes (readGivenChar c) := by
  intro l v rest h
  cases l with
  | nil => cases h
  | cons d l =>
    simp only [readGivenChar] at h
    by_cases hd : d = c
    · rw [if_pos hd] at h
      cases h
      exact ⟨[d], rfl, by simp [hd, hc]⟩
    · rw [if_neg hd] at h
      cases h

theorem takes_number (radix maxDigits limit : Nat) (allowZeroPrefix : Bool) : Takes (readNumber radix maxDigits limit allowZeroPrefix) := by
  intro l v rest h
  unfold readNumber at h
  simp only at h
  split at h
  · cases h
  split at h
  · cases h
  split at h
  · cases h
    refine ⟨l.takeWhile fun c => (digitValue radix c).isSome, ?_, ?_⟩
    · exact (prefix_iff_eq_append.mp (List.takeWhile_prefix _)).symm
    · rw [all_eq_true]
      intro c hc
      exact digit_addressChar (mem_takeWhile_imp (p := fun c => (digitValue radix c).isSome) hc)
  · cases h

theorem Takes.trans {l used rest rest' : List Char} (h : l = used ++ rest)
    (hu : used.all addressChar = true)
    (h' : ∃ used', rest = used' ++ rest' ∧ used'.all addressChar = true) :
    ∃ used', l = used' ++ rest' ∧ used'.all addressChar = true := by
  obtain ⟨used', rfl, hu'⟩ := h'
  exact ⟨used ++ used', by rw [h, append_assoc], by rw [all_append, hu, hu']; rfl⟩

theorem takes_separator {α : Type} {sep : Char} (hs : addressChar sep = true) {inner : Reader α}
    (hi : Takes inner) (index : Nat) : Takes (readSeparator sep index inner) := by
  intro l v rest h
  unfold readSeparator at h
  split at h
  · obtain ⟨⟨u, l'⟩, hsep, hin⟩ := Option.bind_eq_some_iff.mp h
    obtain ⟨used, hl, hu⟩ := takes_givenChar hs l u l' hsep
    exact Takes.trans hl hu (hi l' v rest hin)
  · exact hi l v rest h

theorem takes_octet (index : Nat) : Takes (readOctet index) :=
  takes_separator (by decide) (takes_number _ _ _ _) index

theorem takes_ipv4 : Takes readIpv4Addr := by
  intro l v rest h
  unfold readIpv4Addr at h
  simp only [Option.bind_eq_bind, Option.bind_eq_some_iff, Prod.exists] at h
  obtain ⟨a, la, ha, b, lb, hb, c, lc, hc, d, ld, hd, hpure⟩ := h
  cases hpure
  obtain ⟨used, hl, hu⟩ := takes_octet 0 _ _ _ ha
  obtain ⟨usedB, hlb, hub⟩ := takes_octet 1 _ _ _ hb
  obtain ⟨usedC, hlc, huc⟩ := takes_octet 2 _ _ _ hc
  exact Takes.trans hl hu (Takes.trans hlb hub (Takes.trans hlc huc (takes_octet 3 _ _ _ hd)))

theorem takes_groups (limit fuel i : Nat) (l : List Char) :
    ∃ used, l = used ++ (readGroups limit fuel i l).2.2 ∧ used.all addressChar = true := by
  induction fuel generalizing i l with
  | zero => exact ⟨[], rfl, rfl⟩
  | succ fuel ih =>
    unfold readGroups
    simp only
    split
    · rename_i v4 rest hv4
      split at hv4
      · exact takes_separator (by decide) takes_ipv4 i _ _ _ hv4
      · cases hv4
    · split
      · exact ⟨[], rfl, rfl⟩
      · rename_i g rest hg
        obtain ⟨used, hl, hu⟩ :=
          takes_separator (by decide) (takes_number 16 4 65536 true) i _ _ _ hg
        exact Takes.trans hl hu (ih (i + 1) rest)

theorem takes_ipv6 : Takes readIpv6Addr := by
  intro l v rest h
  unfold readIpv6Addr at h
  obtain ⟨used, hl, hu⟩ := takes_groups 8 8 0 l
  generalize readGroups 8 8 0 l = r at h hl
  obtain ⟨head, headV4, l'⟩ := r
  simp only at h hl
  split at h
  · simp only [Option.map_eq_some_iff, Prod.mk.injEq] at h
    obtain ⟨_, _, _, rfl⟩ := h
    exact ⟨used, hl, hu⟩
  split at h
  · cases h
  · simp only [Option.bind_eq_bind, Option.bind_eq_some_iff, Prod.exists, Option.map_eq_some_iff,
      Prod.mk.injEq] at h
    obtain ⟨_, l1, h1, _, l2, h2, _, _, _, rfl⟩ := h
    obtain ⟨used1, hl1, hu1⟩ := takes_givenChar (by decide) _ _ _ h1
    obtain ⟨used2, hl2, hu2⟩ := takes_givenChar (by decide) _ _ _ h2
    exact Takes.trans hl hu (Takes.trans hl1 hu1 (Takes.trans hl2 hu2 (takes_groups _ _ _ _)))

end IpText

open IpText in
theorem parseIp_chars {l : List Char} {ip : IpAddr} (h : parseIp l = some ip) :
    ∀ c ∈ l, addressChar c = true := by
  rw [← all_eq_true]
  unfold parseIp at h
  split at h
  · rename_i v4 rest hv4
    obtain ⟨used, rfl, hu⟩ := takes_ipv4 _ _ _ hv4
    split at h
    · rename_i hrest
      rw [hrest, append_nil]
      exact hu
    · cases h
  · split at h
    · rename_i v6 rest hv6
      obtain ⟨used, rfl, hu⟩ := takes_ipv6 _ _ _ hv6
      split at h
      · rename_i hrest
        rw [hrest, append_nil]
        exact hu
      · cases h
    · cases h

/-! ## Reading a printed address back -/

namespace IpText

theorem octetText_digits : ∀ n < 256, (Nat.toDigits 10 n).all (fun c => (digitValue 10 c).isSome) ∧
    (Nat.toDigits 10 n).length ≤ 3 ∧ Nat.toDigits 10 n ≠ [] ∧
    ((Nat.toDigits 10 n).head? = some '0' → (Nat.toDigits 10 n).length ≤ 1) ∧
    valueOf 10 (Nat.toDigits 10 n) = n := by
  decide +kernel

theorem readNumber_octet (o : UInt8) {rest : List Char}
    (hrest : ∀ c ∈ rest.head?, (digitValue 10 c).isSome = false) :
    readNumber 10 3 256 false (Ipv4Addr.octetText o ++ rest) = some (o.toNat, rest) := by
  obtain ⟨hdigits, hlen, hne, hzero, hval⟩ := octetText_digits o.toNat o.toNat_lt
  unfold Ipv4Addr.octetText readNumber
  have htake : (Nat.toDigits 10 o.toNat ++ rest).takeWhile
      (fun c => (digitValue 10 c).isSome) = Nat.toDigits 10 o.toNat := by
    rw [takeWhile_append_of_pos (by simpa using hdigits)]
    cases rest with
    | nil => simp
    | cons c rest =>
      have := hrest c rfl
      simp [this]
  have hhead : (Nat.toDigits 10 o.toNat ++ rest).head? = (Nat.toDigits 10 o.toNat).head? := by
    rw [head?_append_of_ne_nil _ hne]
  simp only [htake, hhead, hval, drop_left]
  rw [if_neg, if_neg, if_pos o.toNat_lt]
  · simp only [Bool.not_false, Bool.true_and, Bool.and_eq_true, decide_eq_true_eq]
    intro h
    have := hzero h.1
    omega
  · simp [hne]
    omega

theorem readIpv4Addr_text (ip : Ipv4Addr) : readIpv4Addr ip.text = some (ip, []) := by
  have hdot : ∀ rest : List Char, ∀ c ∈ ('.' :: rest).head?, (digitValue 10 c).isSome = false := by
    intro rest c hc
    cases hc
    decide
  unfold readIpv4Addr Ipv4Addr.text readOctet readSeparator
  simp only [append_assoc, cons_append, Nat.lt_irrefl, if_false, Nat.zero_lt_succ,
    if_true, readNumber_octet _ (hdot _), readGivenChar, Option.bind_eq_bind, Option.bind_some]
  have hlast : readNumber 10 3 256 false (Ipv4Addr.octetText ip.d ++ []) = some (ip.d.toNat, []) :=
    readNumber_octet ip.d (by simp)
  rw [append_nil] at hlast
  simp [hlast]

end IpText

theorem parseIp_text (ip : Ipv4Addr) : parseIp ip.text = some (.v4 ip) := by
  unfold parseIp
  rw [IpText.readIpv4Addr_text]
  rfl

end ContextDesk.Lib
