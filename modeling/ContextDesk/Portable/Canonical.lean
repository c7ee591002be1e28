import ContextDesk.Lib.JsonParse
import ContextDesk.Lib.Regex
import ContextDesk.Cases.Contracts

/-!
# Canonical JSON and what may not be in it

`canonicalJson` writes the members of every object in one order: the order in which the keys of an
object are listed once they were set in code-unit order, which has the array indices first. A
member `__proto__` is lost on the way. `assertNoCredentialLeakage` looks at every text and every
key of a value.
-/

namespace ContextDesk

open Lib List

inductive PortableObjectKind where
  | investigation
  | actor
  | contribution
  | evidence
  | intake_batch
  | content
  | source
  | imported_ai_run
  | snapshot
  | triage_job
  | experiment
  | helpfulness
  | decision
  | gold
  | alignment
  | discussion
  | timeline
  | audit
  | attachment
  deriving DecidableEq

def PortableObjectKind.text : PortableObjectKind → String
  | .investigation => "investigation"
  | .actor => "actor"
  | .contribution => "contribution"
  | .evidence => "evidence"
  | .intake_batch => "intake_batch"
  | .content => "content"
  | .source => "source"
  | .imported_ai_run => "imported_ai_run"
  | .snapshot => "snapshot"
  | .triage_job => "triage_job"
  | .experiment => "experiment"
  | .helpfulness => "helpfulness"
  | .decision => "decision"
  | .gold => "gold"
  | .alignment => "alignment"
  | .discussion => "discussion"
  | .timeline => "timeline"
  | .audit => "audit"
  | .attachment => "attachment"

/-! ## The order of keys -/

def codeUnitsLe : JsString → JsString → Bool
  | [], _ => true
  | _ :: _, [] => false
  | u :: s, v :: t => if u = v then codeUnitsLe s t else decide (u.toNat < v.toNat)

theorem codeUnitsLe_total (s t : JsString) : codeUnitsLe s t = true ∨ codeUnitsLe t s = true := by
  induction s generalizing t with
  | nil => exact .inl rfl
  | cons u s ih =>
    cases t with
    | nil => exact .inr rfl
    | cons v t =>
      simp only [codeUnitsLe]
      by_cases h : u = v
      · subst h
        simpa using ih t
      · rw [if_neg h, if_neg (Ne.symm h), decide_eq_true_eq, decide_eq_true_eq]
        have : u.toNat ≠ v.toNat := fun heq => h (UInt16.toNat_inj.mp heq)
        omega

variable {s : JsString}

theorem codeUnitsLe_trans {t r : JsString} (h : codeUnitsLe s t = true)
    (h' : codeUnitsLe t r = true) : codeUnitsLe s r = true := by
  induction s generalizing t r with
  | nil => rfl
  | cons u s ih =>
    cases t with
    | nil => exact absurd h (by simp [codeUnitsLe])
    | cons v t =>
      cases r with
      | nil => exact absurd h' (by simp [codeUnitsLe])
      | cons w r =>
        simp only [codeUnitsLe] at h h' ⊢
        by_cases huv : u = v
        · subst huv
          rw [if_pos rfl] at h
          by_cases huw : u = w
          · subst huw
            rw [if_pos rfl] at h' ⊢
            exact ih h h'
          · rw [if_neg huw] at h' ⊢
            exact h'
        · rw [if_neg huv, decide_eq_true_eq] at h
          by_cases hvw : v = w
          · subst hvw
            rw [if_neg huv, decide_eq_true_eq]
            exact h
          · rw [if_neg hvw, decide_eq_true_eq] at h'
            have huw : u ≠ w := fun heq => by
              rw [heq] at h
              omega
            rw [if_neg huw, decide_eq_true_eq]
            omega

theorem codeUnitsLe_antisymm {t : JsString} (h : codeUnitsLe s t = true)
    (h' : codeUnitsLe t s = true) : s = t := by
  induction s generalizing t with
  | nil =>
    cases t with
    | nil => rfl
    | cons v t => exact absurd h' (by simp [codeUnitsLe])
  | cons u s ih =>
    cases t with
    | nil => exact absurd h (by simp [codeUnitsLe])
    | cons v t =>
      simp only [codeUnitsLe] at h h'
      by_cases huv : u = v
      · subst huv
        rw [if_pos rfl] at h h'
        rw [ih h h']
      · rw [if_neg huv, decide_eq_true_eq] at h
        rw [if_neg (Ne.symm huv), decide_eq_true_eq] at h'
        omega

/-- Array indices by number, then the other keys as they were set. -/
def ownKeyLe (a b : JsString) : Bool :=
  match arrayIndex a, arrayIndex b with
  | some m, some n => decide (m ≤ n)
  | some _, none => true
  | none, some _ => false
  | none, none => codeUnitsLe a b

theorem ownKeyLe_total (a b : JsString) : ownKeyLe a b = true ∨ ownKeyLe b a = true := by
  unfold ownKeyLe
  cases arrayIndex a <;> cases arrayIndex b
  · exact codeUnitsLe_total a b
  · exact .inr rfl
  · exact .inl rfl
  · next m n => exact (Nat.le_total m n).imp decide_eq_true decide_eq_true

theorem ownKeyLe_trans {a b c : JsString} (h : ownKeyLe a b = true) (h' : ownKeyLe b c = true) :
    ownKeyLe a c = true := by
  unfold ownKeyLe at *
  cases ha : arrayIndex a with
  | none =>
    cases hb : arrayIndex b with
    | some n => simp [ha, hb] at h
    | none =>
      rw [ha, hb] at h
      cases hc : arrayIndex c with
      | some k => simp [hb, hc] at h'
      | none =>
        rw [hb, hc] at h'
        exact codeUnitsLe_trans h h'
  | some m =>
    cases hc : arrayIndex c with
    | none => rfl
    | some k =>
      cases hb : arrayIndex b with
      | none => simp [hb, hc] at h'
      | some n =>
        rw [ha, hb] at h
        rw [hb, hc] at h'
        exact decide_eq_true (Nat.le_trans (of_decide_eq_true h) (of_decide_eq_true h'))

theorem ownKeyLe_antisymm {a b : JsString} (h : ownKeyLe a b = true) (h' : ownKeyLe b a = true) :
    a = b := by
  unfold ownKeyLe at *
  cases ha : arrayIndex a <;> cases hb : arrayIndex b <;> rw [ha, hb] at h h'
  · exact codeUnitsLe_antisymm h h'
  · cases h
  · cases h'
  · next m n =>
    have heq : m = n := Nat.le_antisymm (of_decide_eq_true h) (of_decide_eq_true h')
    rw [eq_indexKey ha, eq_indexKey hb, heq]

def insertMember (member : JsString × JsonValue) :
    List (JsString × JsonValue) → List (JsString × JsonValue)
  | [] => [member]
  | other :: rest =>
    if ownKeyLe member.1 other.1 then member :: other :: rest else other :: insertMember member rest

/-- The members of the object into which the members are set in code-unit order. -/
def ownMembers (members : List (JsString × JsonValue)) : List (JsString × JsonValue) :=
  (members.filter fun member => member.1 ≠ JsString.ofString "__proto__").foldr insertMember []

theorem perm_insertMember (member : JsString × JsonValue) (members : List (JsString × JsonValue)) :
    (insertMember member members).Perm (member :: members) := by
  induction members with
  | nil => exact List.Perm.refl _
  | cons other rest ih =>
    rw [insertMember]
    split
    · exact List.Perm.refl _
    · exact (ih.cons other).trans (List.Perm.swap member other rest)

theorem perm_filter_ownMembers (members : List (JsString × JsonValue)) : (ownMembers members).Perm
    (members.filter fun member => member.1 ≠ JsString.ofString "__proto__") := by
  unfold ownMembers
  induction members.filter fun member => member.1 ≠ JsString.ofString "__proto__" with
  | nil => exact List.Perm.refl _
  | cons member members ih => exact (perm_insertMember _ _).trans (ih.cons member)

variable {members : List (JsString × JsonValue)}

theorem mem_ownMembers {member : JsString × JsonValue} (h : member ∈ ownMembers members) :
    member ∈ members ∧ member.1 ≠ JsString.ofString "__proto__" := by
  have hmem := (perm_filter_ownMembers members).mem_iff.mp h
  rwa [mem_filter, decide_eq_true_eq] at hmem

theorem perm_ownMembers (members : List (JsString × JsonValue))
    (h : JsString.ofString "__proto__" ∉ members.map Prod.fst) :
    (ownMembers members).Perm members := by
  have hfilter : (members.filter fun member => member.1 ≠ JsString.ofString "__proto__") =
      members := by
    refine filter_eq_self.mpr fun member hmember => decide_eq_true fun heq => h ?_
    exact heq ▸ mem_map_of_mem hmember
  have hperm := perm_filter_ownMembers members
  rwa [hfilter] at hperm

theorem pairwise_insertMember (member : JsString × JsonValue)
    (h : members.Pairwise fun a b => ownKeyLe a.1 b.1 = true) :
    (insertMember member members).Pairwise fun a b => ownKeyLe a.1 b.1 = true := by
  induction members with
  | nil => exact pairwise_singleton _ _
  | cons other rest ih =>
    rw [pairwise_cons] at h
    rw [insertMember]
    split
    · next hle =>
      refine pairwise_cons.mpr ⟨fun b hb => ?_, pairwise_cons.mpr h⟩
      rcases mem_cons.mp hb with rfl | hb
      · exact hle
      · exact ownKeyLe_trans hle (h.1 b hb)
    · next hle =>
      refine pairwise_cons.mpr ⟨fun b hb => ?_, ih h.2⟩
      rcases mem_cons.mp ((perm_insertMember member rest).mem_iff.mp hb) with rfl | hb
      · exact (ownKeyLe_total other.1 b.1).resolve_right hle
      · exact h.1 b hb

theorem pairwise_ownMembers (members : List (JsString × JsonValue)) :
    (ownMembers members).Pairwise fun a b => ownKeyLe a.1 b.1 = true := by
  unfold ownMembers
  induction members.filter fun member => member.1 ≠ JsString.ofString "__proto__" with
  | nil => exact List.Pairwise.nil
  | cons member members ih => exact pairwise_insertMember member ih

theorem ownMembers_eq_of_perm {members' : List (JsString × JsonValue)}
    (hperm : members.Perm members') (hnodup : (members.map Prod.fst).Nodup)
    (hproto : JsString.ofString "__proto__" ∉ members.map Prod.fst) :
    ownMembers members = ownMembers members' := by
  have hown := perm_ownMembers members hproto
  have hown' := perm_ownMembers members'
    (fun hmem => hproto ((hperm.map Prod.fst).mem_iff.mpr hmem))
  refine List.Perm.eq_of_pairwise (fun a b ha hb hle hle' => ?_) (pairwise_ownMembers members)
    (pairwise_ownMembers members') ((hown.trans hperm).trans hown'.symm)
  exact inj_on_of_nodup_map hnodup (hown.mem_iff.mp ha)
    ((hown'.trans hperm.symm).mem_iff.mp hb) (ownKeyLe_antisymm hle hle')

mutual

def canonicalValue : JsonValue → JsonValue
  | .array items => .array (canonicalItems items)
  | .object members => .object (ownMembers (canonicalMembers members))
  | .null => .null
  | .bool b => .bool b
  | .number n => .number n
  | .string s => .string s

def canonicalItems : List JsonValue → List JsonValue
  | [] => []
  | item :: items => canonicalValue item :: canonicalItems items

def canonicalMembers : List (JsString × JsonValue) → List (JsString × JsonValue)
  | [] => []
  | (key, value) :: members => (key, canonicalValue value) :: canonicalMembers members

end

theorem canonicalMembers_eq_map (members : List (JsString × JsonValue)) :
    canonicalMembers members = members.map fun member => (member.1, canonicalValue member.2) := by
  induction members with
  | nil => rfl
  | cons member members ih => rw [canonicalMembers, ih, map_cons]

theorem canonicalItems_eq_map (items : List JsonValue) :
    canonicalItems items = items.map canonicalValue := by
  induction items with
  | nil => rfl
  | cons item items ih => rw [canonicalItems, ih, map_cons]

def canonicalJson (value : JsonValue) : JsString := (canonicalValue value).stringify

theorem canonicalJson_inj {v w : JsonValue} (h : canonicalJson v = canonicalJson w) :
    canonicalValue v = canonicalValue w := JsonValue.stringify_injective h

/-! ## Writing values -/

def jsonObject (members : List (String × JsonValue)) : JsonValue :=
  .object (members.map fun member => (JsString.ofString member.1, member.2))

def jsonText (s : String) : JsonValue := .string (JsString.ofString s)

def jsonNat (n : Nat) : JsonValue := .number (JsonText.decimal n)

def jsonNullable (s : Option JsString) : JsonValue := s.elim .null .string

/-! ## Canonical texts of records -/

theorem eq_of_perm_of_keys {l l' : List (JsString × JsonValue)} (hperm : l.Perm l')
    (hkeys : l.map Prod.fst = l'.map Prod.fst) (hnodup : (l.map Prod.fst).Nodup) : l = l' := by
  refine ext_getElem (by simpa using congrArg List.length hkeys) fun i h h' => ?_
  have hmem : l[i] ∈ l' := hperm.mem_iff.mp (getElem_mem h)
  have hkey : l[i].1 = l'[i].1 := by
    have := congrArg (fun keys => keys[i]?) hkeys
    simpa [h, h'] using this
  exact inj_on_of_nodup_map (hkeys ▸ hnodup) hmem (getElem_mem h') hkey

/-- The keys of a record: all different, and none lost. -/
def GoodKeys (keys : List String) : Prop :=
  (keys.map JsString.ofString).Nodup ∧ JsString.ofString "__proto__" ∉ keys.map JsString.ofString

instance (keys : List String) : Decidable (GoodKeys keys) := inferInstanceAs (Decidable (_ ∧ _))

theorem canonicalValue_jsonObject_inj (keys : List String)
    {members members' : List (String × JsonValue)} (hkeys : members.map Prod.fst = keys)
    (hkeys' : members'.map Prod.fst = keys) (hgood : GoodKeys keys)
    (h : canonicalValue (jsonObject members) = canonicalValue (jsonObject members')) :
    members.map (fun m => canonicalValue m.2) = members'.map (fun m => canonicalValue m.2) := by
  simp only [jsonObject, canonicalValue, JsonValue.object.injEq, canonicalMembers_eq_map,
    map_map] at h
  have hfst : ∀ l : List (String × JsonValue), (l.map ((fun member : JsString × JsonValue =>
      (member.1, canonicalValue member.2)) ∘ fun member => (JsString.ofString member.1,
        member.2))).map Prod.fst = (l.map Prod.fst).map JsString.ofString := by
    intro l
    simp [Function.comp_def]
  have hperm := perm_ownMembers (members.map _)
    (by rw [hfst, hkeys]; exact hgood.2)
  have hperm' := perm_ownMembers (members'.map _)
    (by rw [hfst, hkeys']; exact hgood.2)
  rw [h] at hperm
  have heq := eq_of_perm_of_keys (hperm.symm.trans hperm') (by rw [hfst, hfst, hkeys, hkeys'])
    (by rw [hfst, hkeys]; exact hgood.1)
  have hsnd := congrArg (List.map Prod.snd) heq
  simpa [Function.comp_def] using hsnd

theorem canonicalValue_jsonNullable (s : Option JsString) :
    canonicalValue (jsonNullable s) = jsonNullable s := by cases s <;> rfl

theorem jsonNullable_inj {s t : Option JsString} (h : jsonNullable s = jsonNullable t) : s = t := by
  cases s <;> cases t <;> simp_all [jsonNullable]

theorem jsonNat_inj {m n : Nat} (h : jsonNat m = jsonNat n) : m = n :=
  JsonText.decimal_injective (JsonValue.number.inj h)

theorem jsonText_inj {s t : String} (h : jsonText s = jsonText t) :
    JsString.ofString s = JsString.ofString t := JsonValue.string.inj h

/-! ## Credentials -/

def isDigitUnit (u : UInt16) : Bool := 48 ≤ u && u ≤ 57
def isSpaceUnit (u : UInt16) : Bool := JsString.isWhiteSpace u

open Regex in
def FORBIDDEN_VALUE_RE : Regex :=
  let letterUnit := fun u => isDigitUnit u || (97 ≤ lowerUnit u && lowerUnit u ≤ 122)
  let keyUnit := fun u => letterUnit u || u == 95 || u == 45
  let nonSpace := fun u => !isSpaceUnit u
  oneOf [
    .seq (literal "ldap") (.seq (option (literal "s")) (literal "://")),
    .seq (literal "bearer") (.seq (.seq (.unit isSpaceUnit) (.many isSpaceUnit))
      (.seq (.unit nonSpace) (.many nonSpace))),
    .seq (literal "sk-") (.seq (times keyUnit 8) (.many keyUnit)),
    .seq (literal "akia") (times letterUnit 16),
    .seq (literal "-----begin ") (.seq
      (option (oneOf [literal "rsa ", literal "openssh ", literal "ec "]))
      (literal "private key-----")),
    .seq .boundary (.seq
      (oneOf [.seq (literal "api") (.seq (option (.unit fun u => u == 95 || u == 45)) (literal "key")),
        literal "password", literal "secret", literal "token"])
      (.seq (.many isSpaceUnit) (.unit fun u => u == 58 || u == 61)))]

/-- What `toLowerCase` makes of a unit, if that is a letter or a digit of ASCII. -/
def asciiLetter (u : UInt16) : Option UInt16 :=
  if isDigitUnit u || (97 ≤ u && u ≤ 122) then some u
  else if 65 ≤ u && u ≤ 90 then some (u + 32)
  -- the Kelvin sign, and the dotted capital I
  else if u = 0x212a then some 107
  else if u = 0x130 then some 105
  else none

def normalizedKey (key : JsString) : JsString := key.filterMap asciiLetter

def isKeyOf (keys : List String) (key : JsString) : Bool :=
  key.map Regex.lowerUnit ∈ keys.map JsString.ofString

/-- Whether the part is somewhere in the text. -/
def includesText (part : String) (s : JsString) : Bool :=
  s.tails.any fun rest => (JsString.ofString part).isPrefixOf rest

def FORBIDDEN_KEYS : List String :=
  ["apikey", "api_key", "api-key", "authorization", "credential", "credentials", "password",
    "passwd", "pwd", "secret", "token", "accesskey", "access_key", "access-key", "privatekey",
    "private_key", "private-key", "endpoint", "baseurl", "base_url", "base-url", "ldap", "ldapurl",
    "ldap_url", "ldap-url", "binddn", "bind_dn", "bind-dn", "bindpassword", "bind_password",
    "bind-password", "gatewayurl", "gateway_url", "gateway-url", "gatewayhost", "gateway_host",
    "gateway-host", "gatewaysecret", "gateway_secret", "gateway-secret"]

def isForbiddenKey (key : JsString) : Bool :=
  let normalized := normalizedKey key
  isKeyOf FORBIDDEN_KEYS key || includesText "ldap" normalized || includesText "endpoint" normalized ||
    normalized ∈ ["baseurl", "binddn", "bindpassword"].map JsString.ofString

def keyText (key : JsString) : String := String.ofList (key.map fun u => Char.ofNat u.toNat)

def itemPath (path : String) (index : Nat) : String := path ++ "[" ++ toString index ++ "]"

/-- What the texts and the keys of a value may not be. -/
structure TextRules where
  badText : JsString → Bool
  textError : String
  badKey : JsString → Bool
  keyError : String

namespace TextRules

variable (rules : TextRules)

mutual

def check (path : String) : JsonValue → Outcome Unit
  | .string s => ensure (rules.badText s = false) (ContractViolation path rules.textError)
  | .array items => checkItems path 0 items
  | .object members => checkMembers path members
  | .null => .ok ()
  | .bool _ => .ok ()
  | .number _ => .ok ()

def checkItems (path : String) (index : Nat) : List JsonValue → Outcome Unit
  | [] => .ok ()
  | item :: items => do
    check (itemPath path index) item
    checkItems path (index + 1) items

def checkMembers (path : String) : List (JsString × JsonValue) → Outcome Unit
  | [] => .ok ()
  | (key, value) :: members => do
    ensure (rules.badKey key = false)
      (ContractViolation (path ++ "." ++ keyText key) rules.keyError)
    check (path ++ "." ++ keyText key) value
    checkMembers path members

end

mutual

def Passes : JsonValue → Prop
  | .string s => rules.badText s = false
  | .array items => PassesItems items
  | .object members => PassesMembers members
  | .null => True
  | .bool _ => True
  | .number _ => True

def PassesItems : List JsonValue → Prop
  | [] => True
  | item :: items => Passes item ∧ PassesItems items

def PassesMembers : List (JsString × JsonValue) → Prop
  | [] => True
  | (key, value) :: members => rules.badKey key = false ∧ Passes value ∧ PassesMembers members

end

variable {rules}

mutual

theorem check_ok : ∀ {value : JsonValue} {path : String},
    rules.check path value = .ok () ↔ rules.Passes value
  | .string s, path => by simp only [check, ensure_ok, Passes]
  | .array items, path => checkItems_ok
  | .object members, path => checkMembers_ok
  | .null, _ => by simp [check, Passes]
  | .bool _, _ => by simp [check, Passes]
  | .number _, _ => by simp [check, Passes]

theorem checkItems_ok : ∀ {items : List JsonValue} {path : String} {index : Nat},
    rules.checkItems path index items = .ok () ↔ rules.PassesItems items
  | [], _, _ => by simp [checkItems, PassesItems]
  | item :: items, path, index => by
    simp only [checkItems, bind_ok, PassesItems]
    constructor
    · rintro ⟨⟨⟩, hitem, hitems⟩
      exact ⟨check_ok.mp hitem, checkItems_ok.mp hitems⟩
    · rintro ⟨hitem, hitems⟩
      exact ⟨(), check_ok.mpr hitem, checkItems_ok.mpr hitems⟩

theorem checkMembers_ok : ∀ {members : List (JsString × JsonValue)} {path : String},
    rules.checkMembers path members = .ok () ↔ rules.PassesMembers members
  | [], _ => by simp [checkMembers, PassesMembers]
  | (key, value) :: members, path => by
    simp only [checkMembers, bind_ok, ensure_ok, PassesMembers]
    constructor
    · rintro ⟨-, hkey, ⟨⟩, hvalue, hmembers⟩
      exact ⟨hkey, check_ok.mp hvalue, checkMembers_ok.mp hmembers⟩
    · rintro ⟨hkey, hvalue, hmembers⟩
      exact ⟨(), hkey, (), check_ok.mpr hvalue, checkMembers_ok.mpr hmembers⟩

end

theorem passesItems_map {α : Type} {f : α → JsonValue} {l : List α} :
    rules.PassesItems (l.map f) ↔ ∀ a ∈ l, rules.Passes (f a) := by
  induction l with
  | nil => simp [PassesItems]
  | cons a l ih => rw [map_cons, PassesItems, ih, forall_mem_cons]

theorem passes_jsonObject {members : List (String × JsonValue)} :
    rules.Passes (jsonObject members) ↔ ∀ member ∈ members,
      rules.badKey (JsString.ofString member.1) = false ∧ rules.Passes member.2 := by
  rw [jsonObject, Passes]
  induction members with
  | nil => simp [PassesMembers]
  | cons member members ih =>
    rw [map_cons, PassesMembers, ih, forall_mem_cons, and_assoc]

theorem passes_jsonNullable {s : Option JsString} :
    rules.Passes (jsonNullable s) ↔ ∀ t ∈ s, rules.badText t = false := by
  cases s <;> simp [jsonNullable, Passes]

end TextRules

def CREDENTIAL_RULES : TextRules where
  badText := FORBIDDEN_VALUE_RE.test
  textError := "credential, token, secret, or live endpoint leakage"
  badKey := isForbiddenKey
  keyError := "forbidden credential or destination-capability key"

def assertNoCredentialLeakage (path : String) (value : JsonValue) : Outcome Unit :=
  CREDENTIAL_RULES.check path value

/-- No text and no key of the value is a credential. -/
abbrev CredentialFree (value : JsonValue) : Prop := CREDENTIAL_RULES.Passes value

theorem assertNoCredentialLeakage_ok {value : JsonValue} {path : String} :
    assertNoCredentialLeakage path value = .ok () ↔ CredentialFree value := TextRules.check_ok

/-! ## Digests -/

def isLowerHex (u : UInt16) : Bool := isDigitUnit u || (97 ≤ u && u ≤ 102)

/-- `SHA256_HEX`. -/
def isSha256Hex (s : JsString) : Bool := s.length = 64 && s.all isLowerHex

def isIdUnit (u : UInt16) : Bool := isLowerHex u || u == 45

theorem idUnit_toNat {u : UInt16} (h : isIdUnit u = true) :
    u.toNat = 45 ∨ 48 ≤ u.toNat ∧ u.toNat ≤ 57 ∨ 97 ≤ u.toNat ∧ u.toNat ≤ 102 := by
  simp only [isIdUnit, isLowerHex, isDigitUnit, Bool.or_eq_true, Bool.and_eq_true,
    decide_eq_true_eq, UInt16.le_iff_toNat_le, beq_iff_eq, ← UInt16.toNat_inj,
    UInt16.reduceToNat] at h
  omega

theorem lowerUnit_of_idUnit {u c : UInt16} (hc : isIdUnit c = false) (h : isIdUnit u = true) :
    Regex.lowerUnit u ≠ c := by
  have hupper : ¬ (65 ≤ u && u ≤ 90) = true := by
    have := idUnit_toNat h
    simp only [Bool.and_eq_true, decide_eq_true_eq, UInt16.le_iff_toNat_le, UInt16.reduceToNat]
    omega
  rw [Regex.lowerUnit, if_neg hupper]
  rintro rfl
  rw [hc] at h
  exact Bool.false_ne_true h

theorem needs_literal_of_idUnit {w : String} (c : UInt16) (hc : c ∈ JsString.ofString w)
    (hid : isIdUnit c = false) : (Regex.literal w).Needs isIdUnit :=
  Regex.needs_literal hc fun _ hu => lowerUnit_of_idUnit hid hu

theorem forbidden_of_idUnits (h : ∀ u ∈ s, isIdUnit u = true) :
    FORBIDDEN_VALUE_RE.test s = false := by
  refine Regex.test_eq_false (q := isIdUnit) ?_ h
  refine ⟨.inl (needs_literal_of_idUnit 0x6c (by decide) (by decide)),
    .inl (needs_literal_of_idUnit 0x72 (by decide) (by decide)),
    .inl (needs_literal_of_idUnit 0x73 (by decide) (by decide)),
    .inl (needs_literal_of_idUnit 0x6b (by decide) (by decide)),
    .inl (needs_literal_of_idUnit 0x67 (by decide) (by decide)), .inr (.inl ?_)⟩
  exact ⟨.inl (needs_literal_of_idUnit 0x70 (by decide) (by decide)),
    needs_literal_of_idUnit 0x70 (by decide) (by decide),
    needs_literal_of_idUnit 0x73 (by decide) (by decide),
    needs_literal_of_idUnit 0x74 (by decide) (by decide)⟩

theorem forbidden_of_hex (h : isSha256Hex s = true) : FORBIDDEN_VALUE_RE.test s = false := by
  rw [isSha256Hex, Bool.and_eq_true, all_eq_true] at h
  exact forbidden_of_idUnits fun u hu => by rw [isIdUnit, h.2 u hu, Bool.true_or]

end ContextDesk
