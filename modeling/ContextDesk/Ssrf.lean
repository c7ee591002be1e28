import ContextDesk.Lib.IpAddr
import ContextDesk.Lib.Str

/-!
# Where provider requests may go

`validateProviderUrl` checks a base URL before any request, `resolveAndValidate` gives the vetted
addresses of its host: the address of a literal, the loopback address for local names, and what the
resolver answers for every other name, if all of it passes `checkIp`.

The URL parser is a third-party library: `UrlLibrary` holds what the code calls of it, and
`ReadsBack` is the one thing the code relies on, that the serialization of a URL parses to it.
`Vetted` says what the policy promises about an address, range by range, after `unmap` has taken an
IPv4 address out of its IPv6 form.
-/

namespace ContextDesk.Ssrf

open Lib Lib.Text Lib.Str

inductive CoreError where
  | config (message : String)
  | policy (message : String)
  deriving DecidableEq

structure SsrfPolicy where
  blockPrivate : Bool := true
  allowLoopback : Bool := true
  deriving DecidableEq

def SsrfPolicy.allowPrivateNetworks : SsrfPolicy := { blockPrivate := false }

inductive Host where
  | domain (name : List Char)
  | ipv4 (ip : Ipv4Addr)
  | ipv6 (ip : Ipv6Addr)
  deriving DecidableEq

structure Url where
  serialization : List Char
  scheme : String
  host : Option Host
  deriving DecidableEq

/-- The URL parser, and how it writes an IPv6 host. -/
structure UrlLibrary where
  parse : List Char → Except String Url
  ipv6Text : Ipv6Addr → List Char

/-- The serialization of a URL is not blank and parses to the URL. -/
def UrlLibrary.ReadsBack (lib : UrlLibrary) (url : Url) : Prop :=
  trim url.serialization ≠ [] ∧ lib.parse (trim url.serialization) = .ok url

/-- `Url::host_str`; an IPv6 host stands in brackets. -/
def Url.hostStr (lib : UrlLibrary) (url : Url) : Option (List Char) :=
  url.host.map fun
    | .domain name => name
    | .ipv4 ip => ip.text
    | .ipv6 ip => '[' :: lib.ipv6Text ip ++ [']']

def endsWith (tail : String) (l : List Char) : Bool := tail.toList.isSuffixOf l

/-! ## Addresses -/

def isCgnat (ip : Ipv4Addr) : Bool := ip.a = 100 && ip.b &&& 0b11000000 = 0b01000000

def checkV4 (ip : Ipv4Addr) (policy : SsrfPolicy) : Except CoreError Unit :=
  if ip.isLoopback then
    if policy.allowLoopback then .ok () else .error (.policy "loopback not allowed")
  else if ip.isUnspecified || ip.isBroadcast then .error (.policy "invalid destination IP")
  else if ip = ⟨169, 254, 169, 254⟩ then .error (.policy "blocked metadata IP")
  else if ip.isLinkLocal then .error (.policy "blocked link-local IP")
  else if policy.blockPrivate && (ip.isPrivate || isCgnat ip) then
    let shown := String.ofList ip.text
    .error (.policy s!"blocked private IP {shown}; enable private-network override for corp gateways")
  else .ok ()

def isV6LinkLocal (ip : Ipv6Addr) : Bool := ip.s0 &&& 0xffc0 = 0xfe80

def checkNativeV6 (ip : Ipv6Addr) (policy : SsrfPolicy) : Except CoreError Unit :=
  if ip.isLoopback then
    if policy.allowLoopback then .ok () else .error (.policy "loopback not allowed")
  else if ip.isUnspecified then .error (.policy "invalid destination IP")
  else if policy.blockPrivate && (ip.isUniqueLocal || isV6LinkLocal ip) then
    let shown := String.ofList ip.text
    .error (.policy s!"blocked private IPv6 {shown}")
  else .ok ()

def checkV6 (ip : Ipv6Addr) (policy : SsrfPolicy) : Except CoreError Unit :=
  match ip.toIpv4Mapped with
  | some v4 => checkV4 v4 policy
  | none =>
    match ip.toIpv4 with
    | some v4 => if !ip.isLoopback then checkV4 v4 policy else checkNativeV6 ip policy
    | none => checkNativeV6 ip policy

def checkIp : IpAddr → SsrfPolicy → Except CoreError Unit
  | .v4 ip, policy => checkV4 ip policy
  | .v6 ip, policy => checkV6 ip policy

/-! ## URLs -/

/-- `localhost` and the names under it. -/
def isLocalName (hostL : List Char) : Bool :=
  hostL = "localhost".toList || endsWith ".localhost" hostL

def validateProviderUrl (lib : UrlLibrary) (raw : List Char) (policy : SsrfPolicy) :
    Except CoreError Url :=
  let raw := trim raw
  if raw = [] then .error (.config "empty base URL")
  else
    match lib.parse raw with
    | .error e => .error (.config s!"invalid URL: {e}")
    | .ok url =>
      if url.scheme ≠ "http" && url.scheme ≠ "https" then
        .error (.config s!"unsupported URL scheme `{url.scheme}` (use http/https)")
      else
        match url.hostStr lib with
        | none => .error (.config "URL missing host")
        | some host =>
          let hostL := asciiLower host
          if isLocalName hostL then
            if policy.allowLoopback then .ok url
            else .error (.policy "loopback host not allowed")
          else
            match parseIp host with
            | some ip => (checkIp ip policy).map fun _ => url
            | none =>
              match url.host with
              | some (.ipv4 v4) => (checkV4 v4 policy).map fun _ => url
              | some (.ipv6 v6) => (checkV6 v6 policy).map fun _ => url
              | _ =>
                let shown := String.ofList host
                if hostL = "metadata.google.internal".toList ||
                    (endsWith ".internal" hostL && policy.blockPrivate) then
                  .error (.policy s!"blocked host `{shown}` (internal/metadata)")
                else if hostL = "169.254.169.254".toList then
                  .error (.policy "blocked link-local metadata IP")
                else .ok url

/-- `DnsResolver::resolve`. -/
abbrev Resolver := List Char → Except CoreError (List IpAddr)

/-- Check every address; the first refusal wins. -/
def checkIps (policy : SsrfPolicy) : List IpAddr → Except CoreError Unit
  | [] => .ok ()
  | ip :: ips => do
    checkIp ip policy
    checkIps policy ips

def resolveAndValidate (lib : UrlLibrary) (url : Url) (policy : SsrfPolicy) (resolver : Resolver) :
    Except CoreError (List IpAddr) := do
  let _ ← validateProviderUrl lib url.serialization policy
  match url.hostStr lib with
  | none => .error (.config "URL missing host")
  | some host =>
    match parseIp host with
    | some ip => .ok [ip]
    | none =>
      match url.host with
      | some (.ipv4 v4) => .ok [.v4 v4]
      | some (.ipv6 v6) => .ok [.v6 v6]
      | _ =>
        if isLocalName (asciiLower host) then
          if policy.allowLoopback then .ok [.v4 Ipv4Addr.localhost]
          else .error (.policy "loopback host not allowed")
        else do
          let ips ← resolver host
          if ips = [] then
            let shown := String.ofList host
            .error (.config s!"DNS resolve returned no addresses for `{shown}`")
          else
            checkIps policy ips
            .ok ips

/-! ## What an accepted address is -/

/-- The address after unmapping `::ffff:a.b.c.d` and `::a.b.c.d`; `::1` is no mapped address. -/
def unmap : IpAddr → IpAddr
  | .v4 ip => .v4 ip
  | .v6 ip =>
    match ip.toIpv4Mapped with
    | some v4 => .v4 v4
    | none =>
      match ip.toIpv4 with
      | some v4 => if ip.isLoopback then .v6 ip else .v4 v4
      | none => .v6 ip

/-- What the policy promises about an IPv4 address. -/
structure VettedV4 (policy : SsrfPolicy) (ip : Ipv4Addr) : Prop where
  specified : ip ≠ ⟨0, 0, 0, 0⟩
  noBroadcast : ip ≠ ⟨255, 255, 255, 255⟩
  noLinkLocal : ¬ (ip.a = 169 ∧ ip.b = 254)
  noPrivate : policy.blockPrivate = true →
    ¬ (ip.a = 10 ∨ (ip.a = 172 ∧ 16 ≤ ip.b ∧ ip.b ≤ 31) ∨ (ip.a = 192 ∧ ip.b = 168))
  noShared : policy.blockPrivate = true → ¬ (ip.a = 100 ∧ 64 ≤ ip.b ∧ ip.b ≤ 127)
  loopback : ip.a = 127 → policy.allowLoopback = true

/-- What the policy promises about an IPv6 address that holds no IPv4 address. -/
structure VettedV6 (policy : SsrfPolicy) (ip : Ipv6Addr) : Prop where
  specified : ip ≠ ⟨0, 0, 0, 0, 0, 0, 0, 0⟩
  noLinkLocal : policy.blockPrivate = true → ¬ (0xfe80 ≤ ip.s0 ∧ ip.s0 ≤ 0xfebf)
  noUniqueLocal : policy.blockPrivate = true → ¬ (0xfc00 ≤ ip.s0 ∧ ip.s0 ≤ 0xfdff)
  loopback : ip = ⟨0, 0, 0, 0, 0, 0, 0, 1⟩ → policy.allowLoopback = true

def Vetted (policy : SsrfPolicy) : IpAddr → Prop
  | .v4 ip => VettedV4 policy ip
  | .v6 ip => VettedV6 policy ip

theorem and_mask (k w n : Nat) (h : n < 2 ^ (k + w)) :
    n &&& ((2 ^ w - 1) <<< k) = n / 2 ^ k * 2 ^ k := by
  refine Nat.eq_of_testBit_eq fun i => ?_
  rw [Nat.testBit_and, Nat.testBit_shiftLeft, Nat.testBit_two_pow_sub_one,
    Nat.testBit_mul_two_pow, Nat.testBit_div_two_pow]
  by_cases hk : k ≤ i
  · have hi : i - k + k = i := by omega
    by_cases hw : i - k < w
    · simp [hk, hw, hi]
    · have hbit : n.testBit i = false :=
        Nat.testBit_lt_two_pow (h.trans_le (Nat.pow_le_pow_right (by decide) (by omega)))
      simp [hk, hw, hi, hbit]
  · simp [hk]

theorem isCgnat_iff {ip : Ipv4Addr} :
    isCgnat ip = true ↔ ip.a = 100 ∧ 64 ≤ ip.b ∧ ip.b ≤ 127 := by
  unfold isCgnat
  rw [Bool.and_eq_true, decide_eq_true_eq, decide_eq_true_eq]
  refine and_congr_right fun _ => ?_
  have hmask := and_mask 6 2 ip.b.toNat ip.b.toNat_lt
  rw [← UInt8.toNat_inj, UInt8.toNat_and, UInt8.le_iff_toNat_le, UInt8.le_iff_toNat_le]
  show ip.b.toNat &&& ((2 ^ 2 - 1) <<< 6) = 64 ↔ 64 ≤ ip.b.toNat ∧ ip.b.toNat ≤ 127
  rw [hmask]
  omega

theorem isV6LinkLocal_iff {ip : Ipv6Addr} :
    isV6LinkLocal ip = true ↔ 0xfe80 ≤ ip.s0 ∧ ip.s0 ≤ 0xfebf := by
  unfold isV6LinkLocal
  have hmask := and_mask 6 10 ip.s0.toNat ip.s0.toNat_lt
  rw [decide_eq_true_eq, ← UInt16.toNat_inj, UInt16.toNat_and, UInt16.le_iff_toNat_le,
    UInt16.le_iff_toNat_le]
  show ip.s0.toNat &&& ((2 ^ 10 - 1) <<< 6) = 0xfe80 ↔ 0xfe80 ≤ ip.s0.toNat ∧ ip.s0.toNat ≤ 0xfebf
  rw [hmask]
  omega

theorem isPrivate_iff {ip : Ipv4Addr} :
    ip.isPrivate = true ↔
      ip.a = 10 ∨ (ip.a = 172 ∧ 16 ≤ ip.b ∧ ip.b ≤ 31) ∨ (ip.a = 192 ∧ ip.b = 168) := by
  unfold Ipv4Addr.isPrivate
  simp only [Bool.or_eq_true, Bool.and_eq_true, decide_eq_true_eq, and_assoc, or_assoc]

variable {policy : SsrfPolicy}

theorem checkV4_ok {ip : Ipv4Addr} (h : checkV4 ip policy = .ok ()) : VettedV4 policy ip := by
  unfold checkV4 at h
  split at h
  · rename_i hloop
    have ha : ip.a = 127 := by simpa [Ipv4Addr.isLoopback] using hloop
    have hallow : policy.allowLoopback = true := by
      by_contra hno
      rw [if_neg hno] at h
      cases h
    -- a loopback address lies in none of the other ranges
    refine ⟨?_, ?_, ?_, ?_, ?_, fun _ => hallow⟩
    · rintro rfl; exact absurd ha (by decide)
    · rintro rfl; exact absurd ha (by decide)
    all_goals simp [ha]
  rename_i hloop
  split at h
  · cases h
  rename_i hinvalid
  split at h
  · cases h
  split at h
  · cases h
  rename_i hlink
  split at h
  · cases h
  rename_i hprivate
  simp only [Bool.or_eq_true, not_or, Ipv4Addr.isUnspecified, Ipv4Addr.isBroadcast,
    decide_eq_true_eq] at hinvalid
  simp only [Bool.and_eq_true, Bool.or_eq_true, not_and, not_or, isPrivate_iff,
    isCgnat_iff] at hprivate
  refine ⟨hinvalid.1, hinvalid.2, ?_, fun hb => ?_, fun hb => ?_, fun ha => ?_⟩
  · simpa [Ipv4Addr.isLinkLocal] using hlink
  · simpa using (hprivate hb).1
  · simpa using (hprivate hb).2
  · exact absurd (by simpa [Ipv4Addr.isLoopback] using ha) hloop

theorem checkNativeV6_ok {ip : Ipv6Addr} (h : checkNativeV6 ip policy = .ok ()) :
    VettedV6 policy ip := by
  unfold checkNativeV6 at h
  split at h
  · rename_i hloop
    have hip : ip = ⟨0, 0, 0, 0, 0, 0, 0, 1⟩ := by simpa [Ipv6Addr.isLoopback] using hloop
    have hallow : policy.allowLoopback = true := by
      by_contra hno
      rw [if_neg hno] at h
      cases h
    subst hip
    exact ⟨by decide, fun _ => by decide, fun _ => by decide, fun _ => hallow⟩
  rename_i hloop
  split at h
  · cases h
  rename_i hspec
  split at h
  · cases h
  rename_i hprivate
  simp only [Bool.and_eq_true, Bool.or_eq_true, not_and, not_or, isV6LinkLocal_iff,
    Ipv6Addr.isUniqueLocal, decide_eq_true_eq] at hprivate
  refine ⟨?_, fun hb => ?_, fun hb => ?_, fun hip => ?_⟩
  · simpa [Ipv6Addr.isUnspecified] using hspec
  · simpa using (hprivate hb).2
  · simpa using (hprivate hb).1
  · exact absurd (by simpa [Ipv6Addr.isLoopback] using hip) hloop

variable {ip : IpAddr}

theorem checkIp_ok (h : checkIp ip policy = .ok ()) : Vetted policy (unmap ip) := by
  cases ip with
  | v4 ip => exact checkV4_ok h
  | v6 ip =>
    simp only [checkIp, checkV6] at h
    unfold unmap
    simp only
    split at h
    · exact checkV4_ok h
    · split at h
      · rename_i v4 _
        by_cases hl : ip.isLoopback = true
        · simp only [hl, Bool.not_true, Bool.false_eq_true, if_false, if_true] at h ⊢
          exact checkNativeV6_ok h
        · simp only [hl, Bool.not_false, if_true] at h ⊢
          exact checkV4_ok h
      · exact checkNativeV6_ok h

theorem checkIps_ok {ips : List IpAddr} (h : checkIps policy ips = .ok ()) :
    ∀ ip ∈ ips, Vetted policy (unmap ip) := by
  induction ips with
  | nil => simp
  | cons ip ips ih =>
    cases hc : checkIp ip policy with
    | error e =>
      simp only [checkIps, hc] at h
      cases h
    | ok u =>
      simp only [checkIps, hc] at h
      intro other hother
      rcases List.mem_cons.mp hother with rfl | hmem
      · exact checkIp_ok hc
      · exact ih h other hmem

/-! ## Literal addresses and names -/

def httpScheme (url : Url) : Prop := url.scheme = "http" ∨ url.scheme = "https"

theorem isLocalName_last {l : List Char} (h : isLocalName l = true) : l.getLast? = some 't' := by
  unfold isLocalName endsWith at h
  rw [Bool.or_eq_true, decide_eq_true_eq, List.isSuffixOf_iff_suffix] at h
  rcases h with rfl | ⟨front, rfl⟩
  · decide
  · rw [List.getLast?_append]
    rfl

theorem toLower_eq_t {c : Char} (h : c.toLower = 't') : c = 't' ∨ c = 'T' := by
  have hn := congrArg Char.toNat h
  rw [toNat_toLower] at hn
  have ht : 't'.toNat = 116 := rfl
  rw [ht] at hn
  split at hn
  · refine .inr (Char.toNat_inj.mp ?_)
    show c.toNat = 84
    omega
  · exact .inl (Char.toNat_inj.mp hn)

theorem parseIp_localName {host : List Char} (h : isLocalName (asciiLower host) = true) :
    parseIp host = none := by
  have hlast := isLocalName_last h
  unfold asciiLower at hlast
  rw [List.getLast?_map, Option.map_eq_some_iff] at hlast
  obtain ⟨c, hc, ht⟩ := hlast
  cases hp : parseIp host with
  | none => rfl
  | some ip =>
    have hchar := parseIp_chars hp c (List.mem_of_getLast? hc)
    rcases toLower_eq_t ht with rfl | rfl
    · exact absurd hchar (by decide)
    · exact absurd hchar (by decide)

theorem parseIp_bracket (l : List Char) : parseIp ('[' :: l) = none := by
  cases hp : parseIp ('[' :: l) with
  | none => rfl
  | some ip => exact absurd (parseIp_chars hp '[' List.mem_cons_self) (by decide)

theorem asciiLower_eq_metadata {name : List Char}
    (h : asciiLower name = "169.254.169.254".toList) : name = "169.254.169.254".toList := by
  have hfix : ∀ c ∈ name, c.toLower = c := by
    intro c hc
    have hmem : c.toLower ∈ "169.254.169.254".toList := by
      rw [← h]
      exact List.mem_map_of_mem hc
    have hsmall : ∀ d ∈ "169.254.169.254".toList, d.toNat < 65 := by simp
    have hlt := hsmall _ hmem
    refine Char.toNat_inj.mp ?_
    rw [toNat_toLower] at hlt ⊢
    split_ifs at hlt ⊢ <;> omega
  rw [← h]
  unfold asciiLower
  exact ((List.map_congr_left hfix).trans (List.map_id' name)).symm

def Host.ofIp : IpAddr → Host
  | .v4 ip => .ipv4 ip
  | .v6 ip => .ipv6 ip

variable {url : Url}

/-- The host text of a literal is read as its address, or as none when it stands in brackets; it is
never a local name. -/
theorem hostStr_ofIp (lib : UrlLibrary) (h : url.host = some (Host.ofIp ip)) :
    ∃ host, url.hostStr lib = some host ∧ isLocalName (asciiLower host) = false ∧
      (parseIp host = some ip ∨ parseIp host = none) := by
  unfold Url.hostStr
  rw [h]
  cases ip with
  | v4 ip =>
    refine ⟨ip.text, rfl, ?_, .inl (parseIp_text ip)⟩
    by_contra hlocal
    have := parseIp_localName (Bool.not_eq_false _ ▸ hlocal)
    rw [parseIp_text] at this
    cases this
  | v6 ip =>
    refine ⟨'[' :: lib.ipv6Text ip ++ [']'], rfl, ?_, .inr (parseIp_bracket _)⟩
    by_contra hlocal
    have hlast := isLocalName_last (Bool.not_eq_false _ ▸ hlocal)
    unfold asciiLower at hlast
    rw [List.getLast?_map, List.getLast?_append] at hlast
    simp at hlast

variable {lib : UrlLibrary}

theorem resolve_literal (hre : lib.ReadsBack url) (hhttp : httpScheme url)
    (h : url.host = some (Host.ofIp ip)) (resolver : Resolver) :
    resolveAndValidate lib url policy resolver = (checkIp ip policy).map fun _ => [ip] := by
  obtain ⟨host, hhost, hlocal, hparse⟩ := hostStr_ofIp lib h
  obtain ⟨hne, hread⟩ := hre
  have hscheme : (decide (url.scheme ≠ "http") && decide (url.scheme ≠ "https")) = false := by
    rcases hhttp with h | h <;> simp [h]
  unfold resolveAndValidate validateProviderUrl
  simp only [hne, hread, hscheme, hhost, hlocal, if_false, Bool.false_eq_true]
  rcases hparse with hp | hp
  · simp only [hp]
    cases checkIp ip policy <;> rfl
  · simp only [hp, h]
    cases ip with
    | v4 ip =>
      show _ = (checkV4 ip policy).map _
      simp only [Host.ofIp]
      cases checkV4 ip policy <;> rfl
    | v6 ip =>
      show _ = (checkV6 ip policy).map _
      simp only [Host.ofIp]
      cases checkV6 ip policy <;> rfl

/-- A host name that the code gives no special meaning: not a local name, not a metadata name, and
not an address. -/
structure PlainName (policy : SsrfPolicy) (name : List Char) : Prop where
  noLocal : isLocalName (asciiLower name) = false
  noMetadata : asciiLower name ≠ "metadata.google.internal".toList
  noInternal : policy.blockPrivate = true → endsWith ".internal" (asciiLower name) = false
  noAddress : parseIp name = none

/-- The decision on a plain name that resolves to one address is the check of that address. -/
theorem resolve_name {name : List Char} {resolver : Resolver} (hre : lib.ReadsBack url)
    (hhttp : httpScheme url) (h : url.host = some (.domain name)) (hname : PlainName policy name)
    (hdns : resolver name = .ok [ip]) :
    resolveAndValidate lib url policy resolver = (checkIp ip policy).map fun _ => [ip] := by
  have hhost : url.hostStr lib = some name := by
    unfold Url.hostStr
    rw [h]
    rfl
  obtain ⟨hne, hread⟩ := hre
  have hscheme : (decide (url.scheme ≠ "http") && decide (url.scheme ≠ "https")) = false := by
    rcases hhttp with h | h <;> simp [h]
  have hinternal : (decide (asciiLower name = "metadata.google.internal".toList) ||
      (endsWith ".internal" (asciiLower name) && policy.blockPrivate)) = false := by
    rw [Bool.or_eq_false_iff, decide_eq_false_iff_not, Bool.and_eq_false_iff]
    refine ⟨hname.noMetadata, ?_⟩
    cases hb : policy.blockPrivate with
    | true => exact .inl (hname.noInternal hb)
    | false => exact .inr rfl
  have hmeta : asciiLower name ≠ "169.254.169.254".toList := by
    intro he
    have hp := hname.noAddress
    rw [asciiLower_eq_metadata he] at hp
    exact absurd hp (by decide)
  unfold resolveAndValidate validateProviderUrl
  simp only [hne, hread, hscheme, hhost, hname.noLocal, hname.noAddress, h, hinternal, hmeta,
    hdns, if_false, Bool.false_eq_true]
  cases hc : checkIp ip policy with
  | error e => simp [bind, Except.bind, checkIps, hc, Except.map]
  | ok u => simp [bind, Except.bind, checkIps, hc, Except.map]

/-- What the re-validation of a URL that reads back has checked. -/
theorem validate_checked {checked : Url} {host : List Char} (hre : lib.ReadsBack url)
    (hhost : url.hostStr lib = some host) (hlocal : isLocalName (asciiLower host) = false)
    (h : validateProviderUrl lib url.serialization policy = .ok checked) :
    (∀ ip, parseIp host = some ip → checkIp ip policy = .ok ()) ∧
      ∀ ip, parseIp host = none → url.host = some (Host.ofIp ip) → checkIp ip policy = .ok () := by
  obtain ⟨hne, hread⟩ := hre
  unfold validateProviderUrl at h
  simp only [hne, hread, hhost, hlocal, if_false, Bool.false_eq_true] at h
  split at h
  · cases h
  constructor
  · intro ip hp
    simp only [hp] at h
    cases hc : checkIp ip policy with
    | error e => rw [hc] at h; cases h
    | ok u => rfl
  · intro ip hp hip
    simp only [hp, hip] at h
    cases ip with
    | v4 ip =>
      show checkV4 ip policy = .ok ()
      simp only [Host.ofIp] at h
      cases hc : checkV4 ip policy with
      | error e => rw [hc] at h; cases h
      | ok u => rfl
    | v6 ip =>
      show checkV6 ip policy = .ok ()
      simp only [Host.ofIp] at h
      cases hc : checkV6 ip policy with
      | error e => rw [hc] at h; cases h
      | ok u => rfl

theorem vetted_localhost (h : policy.allowLoopback = true) :
    Vetted policy (unmap (.v4 Ipv4Addr.localhost)) :=
  ⟨by decide, by decide, by decide, fun _ => by decide, fun _ => by decide, fun _ => h⟩

/-- Every address of an accepted URL is vetted. -/
theorem resolve_vetted {resolver : Resolver} {ips : List IpAddr} (hre : lib.ReadsBack url)
    (h : resolveAndValidate lib url policy resolver = .ok ips) :
    ips ≠ [] ∧ ∀ ip ∈ ips, Vetted policy (unmap ip) := by
  have hone : ∀ ip, Vetted policy (unmap ip) → [ip] ≠ [] ∧ ∀ i ∈ [ip], Vetted policy (unmap i) :=
    fun ip hip => ⟨by simp, by simpa using hip⟩
  unfold resolveAndValidate at h
  cases hvalid : validateProviderUrl lib url.serialization policy with
  | error e => rw [hvalid] at h; cases h
  | ok checked =>
    rw [hvalid] at h
    cases hhost : url.hostStr lib with
    | none => simp only [hhost] at h; cases h
    | some host =>
      simp only [hhost, bind, Except.bind] at h
      by_cases hlocal : isLocalName (asciiLower host) = true
      · -- a local name is neither an address nor the text of a literal
        have hp := parseIp_localName hlocal
        have hname : ∀ ip, url.host ≠ some (Host.ofIp ip) := by
          intro ip hip
          obtain ⟨text, htext, hno, -⟩ := hostStr_ofIp lib hip
          rw [hhost] at htext
          cases htext
          rw [hlocal] at hno
          cases hno
        simp only [hp, hlocal, if_true] at h
        split at h
        · exact absurd ‹_› (hname (.v4 _))
        · exact absurd ‹_› (hname (.v6 _))
        · split at h
          · rename_i hallow
            cases h
            exact hone _ (vetted_localhost hallow)
          · cases h
      · rw [Bool.not_eq_true] at hlocal
        obtain ⟨hliteral, htyped⟩ := validate_checked hre hhost hlocal hvalid
        cases hp : parseIp host with
        | some ip =>
          simp only [hp] at h
          cases h
          exact hone ip (checkIp_ok (hliteral ip hp))
        | none =>
          simp only [hp, hlocal, Bool.false_eq_true, if_false] at h
          split at h
          · rename_i v4 hv4
            cases h
            exact hone _ (checkIp_ok (htyped (.v4 v4) hp hv4))
          · rename_i v6 hv6
            cases h
            exact hone _ (checkIp_ok (htyped (.v6 v6) hp hv6))
          · cases hdns : resolver host with
            | error e => rw [hdns] at h; cases h
            | ok answer =>
              rw [hdns] at h
              simp only at h
              split at h
              · cases h
              · rename_i hne
                cases hc : checkIps policy answer with
                | error e => rw [hc] at h; cases h
                | ok u =>
                  rw [hc] at h
                  cases h
                  exact ⟨hne, checkIps_ok hc⟩

/-- Accepted URLs give vetted addresses only, and a literal is decided like a plain name that
resolves to exactly its address. -/
theorem resolveAndValidate_vetted (lib : UrlLibrary) (url : Url) (hre : lib.ReadsBack url)
    (hhttp : httpScheme url) (policy : SsrfPolicy) (resolver : Resolver) :
    (∀ ips, resolveAndValidate lib url policy resolver = .ok ips →
      ips ≠ [] ∧ ∀ ip ∈ ips, Vetted policy (unmap ip)) ∧
    ∀ (ip : IpAddr) (named : Url) (name : List Char), url.host = some (Host.ofIp ip) →
      lib.ReadsBack named → httpScheme named → named.host = some (.domain name) →
      PlainName policy name → resolver name = .ok [ip] →
      resolveAndValidate lib url policy resolver =
        resolveAndValidate lib named policy resolver := by
  refine ⟨fun ips h => resolve_vetted hre h, ?_⟩
  intro ip named name hip hnamed hscheme hdomain hplain hdns
  rw [resolve_literal hre hhttp hip, resolve_name hnamed hscheme hdomain hplain hdns]

/-! ## Sample URLs -/

def publicIp : Ipv4Addr := ⟨93, 184, 216, 34⟩

def literalUrl : Url := ⟨"http://93.184.216.34/".toList, "http", some (.ipv4 publicIp)⟩

def namedUrl : Url :=
  ⟨"https://api.example.com/v1".toList, "https", some (.domain "api.example.com".toList)⟩

def metadataUrl : Url :=
  ⟨"http://metadata.google.internal/".toList, "http",
    some (.domain "metadata.google.internal".toList)⟩

def linkLocalIp : Ipv6Addr := ⟨0xfe80, 0, 0, 0, 0, 0, 0, 1⟩

def linkLocalUrl : Url := ⟨"http://[fe80::1]/".toList, "http", some (.ipv6 linkLocalIp)⟩

def sampleLibrary : UrlLibrary where
  parse raw :=
    match [literalUrl, namedUrl, metadataUrl, linkLocalUrl].find? (·.serialization = raw) with
    | some url => .ok url
    | none => .error "relative URL without a base"
  ipv6Text := Ipv6Addr.text

def publicResolver : Resolver := fun _ => .ok [.v4 publicIp]

theorem resolveAndValidate_vetted_sample :
    resolveAndValidate sampleLibrary literalUrl {} publicResolver = .ok [.v4 publicIp] ∧
      resolveAndValidate sampleLibrary literalUrl {} publicResolver =
        resolveAndValidate sampleLibrary namedUrl {} publicResolver := by
  refine ⟨by decide +kernel, ?_⟩
  refine (resolveAndValidate_vetted sampleLibrary literalUrl ?_ (.inl rfl) {} publicResolver).2
    (.v4 publicIp) namedUrl "api.example.com".toList rfl ?_ (.inr rfl) rfl ?_ rfl
  · exact ⟨by decide +kernel, by decide +kernel⟩
  · exact ⟨by decide +kernel, by decide +kernel⟩
  · exact ⟨by decide +kernel, by decide +kernel, fun _ => by decide +kernel, by decide +kernel⟩

/-- A link-local IPv6 literal passes when private networks are allowed, and a metadata name is
refused though the literal it resolves to is not. -/
theorem link_local_v6_and_metadata_name :
    resolveAndValidate sampleLibrary linkLocalUrl SsrfPolicy.allowPrivateNetworks publicResolver =
        .ok [.v6 linkLocalIp] ∧
      resolveAndValidate sampleLibrary literalUrl {} publicResolver = .ok [.v4 publicIp] ∧
      resolveAndValidate sampleLibrary metadataUrl {} publicResolver =
        .error (.policy "blocked host `metadata.google.internal` (internal/metadata)") := by
  decide +kernel

end ContextDesk.Ssrf
