import ContextDesk.Lib.NodeBuffer
import ContextDesk.Portable.Faithful

/-!
# Cursors of collection pages

A cursor is given out as the base64url text of a JSON object that carries a code over the purpose
and the other members. `parseCursor` mints the value it read once more and compares, so the texts
it accepts are the ones that were minted. A cursor can be minted with fields that the parser does
not take back.
-/

namespace ContextDesk

open Lib Lib.NodeBuffer

structure InvestigationCollectionCursor where
  actorId : JsString
  isAdmin : Bool
  queryFingerprint : JsString
  createdAt : JsString
  id : JsString

namespace CollectionCursor

def CURSOR_VERSION : Nat := 1

def COLLECTION_CURSOR_PURPOSE : String := "cd-collab.investigation_collection_cursor.v1"

def OPERATIONS_QUEUE_CURSOR_PURPOSE : String := "cd-collab.investigation_operations_queue_cursor.v1"

def isCursorUnit (u : UInt16) : Bool :=
  (65 ≤ u && u ≤ 90) || (97 ≤ u && u ≤ 122) || (48 ≤ u && u ≤ 57) || u == 95 || u == 45

/-- `/^[A-Za-z0-9_-]{8,4096}$/`. -/
def OPAQUE_CURSOR_RE (s : JsString) : Bool :=
  8 ≤ s.length && s.length ≤ 4096 && s.all isCursorUnit

/-- The code of the one error that is thrown here. -/
def malformed_cursor : String := "malformed_cursor"

/-! ## Minting -/

def unsignedMembers (cursor : InvestigationCollectionCursor) : List (String × JsonValue) :=
  [("v", jsonNat CURSOR_VERSION), ("a", .string cursor.actorId),
    ("g", jsonNat (if cursor.isAdmin then 1 else 0)), ("q", .string cursor.queryFingerprint),
    ("t", .string cursor.createdAt), ("i", .string cursor.id)]

def unsignedBody (cursor : InvestigationCollectionCursor) : JsString :=
  canonicalJson (jsonObject (unsignedMembers cursor))

def signedMembers (cursor : InvestigationCollectionCursor) (m : JsString) :
    List (String × JsonValue) := unsignedMembers cursor ++ [("m", .string m)]

def encodeToken (cursor : InvestigationCollectionCursor) (m : JsString) : JsString :=
  toBase64url (toUtf8 (canonicalJson (jsonObject (signedMembers cursor m))))

section

-- the base64url digest of some bytes under the key of the process
variable (hmac : List UInt8 → JsString)

def macOf (body : JsString) (purpose : String) : JsString :=
  hmac (toUtf8 (JsString.ofString purpose) ++ toUtf8 body)

def mintCursor (cursor : InvestigationCollectionCursor) (purpose : String) : Outcome JsString := do
  let token := encodeToken cursor (macOf hmac (unsignedBody cursor) purpose)
  ensure (OPAQUE_CURSOR_RE token = true) malformed_cursor
  pure token

def mintInvestigationCollectionCursor (cursor : InvestigationCollectionCursor) : Outcome JsString :=
  mintCursor hmac cursor COLLECTION_CURSOR_PURPOSE

def mintInvestigationOperationsQueueCursor (cursor : InvestigationCollectionCursor) :
    Outcome JsString := mintCursor hmac cursor OPERATIONS_QUEUE_CURSOR_PURPOSE

end

/-! ## Parsing -/

section

variable (doubles : Doubles) (hmac : List UInt8 → JsString)

abbrev Record := List (JsString × ParsedJson doubles.Number)

variable {doubles}

def asRecord : ParsedJson doubles.Number → Option (Record doubles)
  | .object record => some record
  | _ => none

def isNumber (record : Record doubles) (key : String) (n : Nat) : Bool :=
  match memberOf record (JsString.ofString key) with
  | some (.number x) => doubles.same x (doubles.read (JsonText.decimal n))
  | _ => false

def textOf (record : Record doubles) (key : String) : Option JsString :=
  match memberOf record (JsString.ofString key) with
  | some (.string s) => some s
  | _ => none

def equalMac (actual expected : JsString) : Bool := toUtf8 actual = toUtf8 expected

def readCursor (record : Record doubles) : Outcome (InvestigationCollectionCursor × JsString) := do
  ensure (record.length = 7 ∧ isNumber record "v" CURSOR_VERSION = true) malformed_cursor
  let a ← require (textOf record "a") malformed_cursor
  ensure (1 ≤ a.length ∧ (isNumber record "g" 0 = true ∨ isNumber record "g" 1 = true))
    malformed_cursor
  let q ← require (textOf record "q") malformed_cursor
  ensure (q.length = 64) malformed_cursor
  let t ← require (textOf record "t") malformed_cursor
  ensure (1 ≤ t.length) malformed_cursor
  let i ← require (textOf record "i") malformed_cursor
  ensure (1 ≤ i.length) malformed_cursor
  let m ← require (textOf record "m") malformed_cursor
  pure (⟨a, isNumber record "g" 1, q, t, i⟩, m)

variable (doubles)

def parseCursor (raw : JsString) (purpose : String) : Outcome InvestigationCollectionCursor := do
  ensure (OPAQUE_CURSOR_RE raw = true) malformed_cursor
  let decoded ← require (jsonParse doubles (ofUtf8 (fromBase64url raw))) malformed_cursor
  let record ← require (asRecord decoded) malformed_cursor
  let (cursor, m) ← readCursor record
  ensure (equalMac m (macOf hmac (unsignedBody cursor) purpose) = true) malformed_cursor
  let roundTrip ← mintCursor hmac cursor purpose
  ensure (roundTrip = raw) malformed_cursor
  pure cursor

def parseInvestigationCollectionCursor (raw : JsString) : Outcome InvestigationCollectionCursor :=
  parseCursor doubles hmac raw COLLECTION_CURSOR_PURPOSE

def parseInvestigationOperationsQueueCursor (raw : JsString) :
    Outcome InvestigationCollectionCursor :=
  parseCursor doubles hmac raw OPERATIONS_QUEUE_CURSOR_PURPOSE

end

/-! ## The text of a token -/

def Complete (cursor : InvestigationCollectionCursor) : Prop :=
  1 ≤ cursor.actorId.length ∧ cursor.queryFingerprint.length = 64 ∧ 1 ≤ cursor.createdAt.length ∧
    1 ≤ cursor.id.length

theorem ofUtf8_encodeToken (cursor : InvestigationCollectionCursor) (m : JsString) :
    ofUtf8 (fromBase64url (encodeToken cursor m)) =
      canonicalJson (jsonObject (signedMembers cursor m)) := by
  rw [encodeToken, fromBase64url_toBase64url]
  exact ofUtf8_toUtf8 (isText_stringify _)

theorem encodeToken_mac_inj {c c' : InvestigationCollectionCursor} {m m' : JsString}
    (h : encodeToken c m = encodeToken c' m') : m = m' := by
  have htext : canonicalJson (jsonObject (signedMembers c m)) =
      canonicalJson (jsonObject (signedMembers c' m')) := by
    rw [← ofUtf8_encodeToken, h, ofUtf8_encodeToken]
  have hvalues := canonicalValue_jsonObject_inj ["v", "a", "g", "q", "t", "i", "m"] rfl rfl
    (by decide) (canonicalJson_inj htext)
  simp only [signedMembers, unsignedMembers, List.cons_append, List.nil_append, List.map_cons,
    List.map_nil, canonicalValue, List.cons.injEq, JsonValue.string.injEq] at hvalues
  exact hvalues.2.2.2.2.2.2.1

section

variable {doubles : Doubles}

/-- The members of a token, in the order in which they are written. -/
def tokenRecord (doubles : Doubles) (c : InvestigationCollectionCursor) (m : JsString) :
    Record doubles :=
  [(JsString.ofString "a", .string c.actorId),
    (JsString.ofString "g", .number (doubles.read (JsonText.decimal (if c.isAdmin then 1 else 0)))),
    (JsString.ofString "i", .string c.id), (JsString.ofString "m", .string m),
    (JsString.ofString "q", .string c.queryFingerprint),
    (JsString.ofString "t", .string c.createdAt),
    (JsString.ofString "v", .number (doubles.read (JsonText.decimal CURSOR_VERSION)))]

theorem canonicalValue_signedMembers (c : InvestigationCollectionCursor) (m : JsString) :
    canonicalValue (jsonObject (signedMembers c m)) = jsonObject
      [("a", .string c.actorId), ("g", jsonNat (if c.isAdmin then 1 else 0)), ("i", .string c.id),
        ("m", .string m), ("q", .string c.queryFingerprint), ("t", .string c.createdAt),
        ("v", jsonNat CURSOR_VERSION)] := by
  simp only [signedMembers, unsignedMembers, jsonObject, List.cons_append, List.nil_append,
    List.map_cons, List.map_nil, canonicalValue, canonicalMembers, jsonNat]
  exact congrArg JsonValue.object rfl

theorem jsonParse_encodeToken (c : InvestigationCollectionCursor) (m : JsString) :
    jsonParse doubles (ofUtf8 (fromBase64url (encodeToken c m))) =
      some (.object (tokenRecord doubles c m)) := by
  have hnames : ∀ pair ∈ tokenRecord doubles c m, arrayIndex pair.1 = none := by
    intro pair hpair
    have hkeys : ∀ key ∈ (["a", "g", "i", "m", "q", "t", "v"].map JsString.ofString),
        arrayIndex key = none := by decide
    exact hkeys pair.1 (List.mem_map_of_mem (f := Prod.fst) hpair)
  have hpairs : ofPairs (tokenRecord doubles c m) = tokenRecord doubles c m :=
    ofPairs_of_names (by show (["a", "g", "i", "m", "q", "t", "v"].map JsString.ofString).Nodup
                         decide) hnames
  rw [ofUtf8_encodeToken, canonicalJson, canonicalValue_signedMembers,
    JsonValue.jsonParse_stringify]
  · exact congrArg (fun record => some (ParsedJson.object record)) hpairs
  · exact ⟨trivial, isLiteral_decimal _, trivial, trivial, trivial, trivial, isLiteral_decimal _,
      trivial⟩

theorem isNumber_version (c : InvestigationCollectionCursor) (m : JsString) :
    isNumber (tokenRecord doubles c m) "v" CURSOR_VERSION = true :=
  (doubles.same_decimal (by decide) (by decide)).mpr rfl

theorem isNumber_admin (c : InvestigationCollectionCursor) (m : JsString) {n : Nat} (hn : n < 2) :
    isNumber (tokenRecord doubles c m) "g" n = true ↔ (if c.isAdmin then 1 else 0) = n := by
  have hadmin : (if c.isAdmin then 1 else 0) < 2 ^ 53 := by split <;> decide
  exact doubles.same_decimal hadmin (Nat.lt_trans hn (by decide))

theorem readCursor_tokenRecord {c c' : InvestigationCollectionCursor} {m m' : JsString} :
    readCursor (tokenRecord doubles c m) = .ok (c', m') ↔ Complete c ∧ c' = c ∧ m' = m := by
  have ha : textOf (tokenRecord doubles c m) "a" = some c.actorId := rfl
  have hq : textOf (tokenRecord doubles c m) "q" = some c.queryFingerprint := rfl
  have ht : textOf (tokenRecord doubles c m) "t" = some c.createdAt := rfl
  have hi : textOf (tokenRecord doubles c m) "i" = some c.id := rfl
  have hm : textOf (tokenRecord doubles c m) "m" = some m := rfl
  have hlen : (tokenRecord doubles c m).length = 7 := rfl
  have hadmin : isNumber (tokenRecord doubles c m) "g" 1 = c.isAdmin := by
    rw [Bool.eq_iff_iff, isNumber_admin c m (by decide)]
    cases c.isAdmin <;> simp
  have hg : isNumber (tokenRecord doubles c m) "g" 0 = true ∨
      isNumber (tokenRecord doubles c m) "g" 1 = true := by
    rw [isNumber_admin c m (by decide), isNumber_admin c m (by decide)]
    cases c.isAdmin <;> simp
  simp only [readCursor, bind_ok, ensure_ok, require_ok, ha, hq, ht, hi, hm, Option.some.injEq,
    pure_ok, Prod.mk.injEq, isNumber_version, hlen, hg, and_true, true_and]
  constructor
  · rintro ⟨-, _, rfl, -, h1, _, rfl, -, h2, _, rfl, -, h3, _, rfl, -, h4, _, rfl, hc, rfl⟩
    exact ⟨⟨h1, h2, h3, h4⟩, by rw [← hc, hadmin], rfl⟩
  · rintro ⟨⟨h1, h2, h3, h4⟩, rfl, rfl⟩
    exact ⟨(), _, rfl, (), h1, _, rfl, (), h2, _, rfl, (), h3, _, rfl, (), h4, _, rfl,
      by rw [hadmin], rfl⟩

end

/-! ## What is accepted -/

section

variable {doubles : Doubles} {hmac : List UInt8 → JsString}

variable {c : InvestigationCollectionCursor} {purpose : String}

theorem mintCursor_ok {token : JsString} :
    mintCursor hmac c purpose = .ok token ↔
      encodeToken c (macOf hmac (unsignedBody c) purpose) = token ∧
        OPAQUE_CURSOR_RE token = true := by
  simp only [mintCursor, bind_ok, ensure_ok, pure_ok]
  constructor
  · rintro ⟨-, h, rfl⟩
    exact ⟨rfl, h⟩
  · rintro ⟨rfl, h⟩
    exact ⟨(), h, rfl⟩

theorem mint_of_parse {raw : JsString} (h : parseCursor doubles hmac raw purpose = .ok c) :
    mintCursor hmac c purpose = .ok raw := by
  simp only [parseCursor, bind_ok, ensure_ok, pure_ok] at h
  obtain ⟨-, -, decoded, -, record, -, ⟨cursor, m⟩, -, -, -, token, hmint, -, rfl, rfl⟩ := h
  exact hmint

theorem parse_mint {c' : InvestigationCollectionCursor} {token : JsString}
    (h : mintCursor hmac c purpose = .ok token) :
    parseCursor doubles hmac token purpose = .ok c' ↔ Complete c ∧ c' = c := by
  obtain ⟨htoken, hopaque⟩ := mintCursor_ok.mp h
  have hparse := @jsonParse_encodeToken doubles c (macOf hmac (unsignedBody c) purpose)
  rw [htoken] at hparse
  simp only [parseCursor, bind_ok, ensure_ok, pure_ok, require_ok, hparse, Option.some.injEq]
  constructor
  · rintro ⟨-, -, _, rfl, record, hrecord, ⟨cursor, m⟩, hread, -, -, token', -, -, -, rfl⟩
    cases hrecord
    obtain ⟨hcomplete, rfl, -⟩ := readCursor_tokenRecord.mp hread
    exact ⟨hcomplete, rfl⟩
  · rintro ⟨hcomplete, rfl⟩
    exact ⟨(), hopaque, _, rfl, _, rfl, (c', _), readCursor_tokenRecord.mpr ⟨hcomplete, rfl, rfl⟩,
      (), decide_eq_true rfl, token, h, (), rfl, rfl⟩

theorem purposes_differ (x y : List UInt8) :
    toUtf8 (JsString.ofString COLLECTION_CURSOR_PURPOSE) ++ x ≠
      toUtf8 (JsString.ofString OPERATIONS_QUEUE_CURSOR_PURPOSE) ++ y := by
  intro h
  have htake := congrArg (List.take 30) h
  rw [List.take_append_of_le_length (by decide), List.take_append_of_le_length (by decide)] at htake
  exact absurd htake (by decide)

theorem mint_disjoint (hinj : Function.Injective hmac) {c' : InvestigationCollectionCursor}
    {raw : JsString} (h : mintInvestigationCollectionCursor hmac c = .ok raw)
    (h' : mintInvestigationOperationsQueueCursor hmac c' = .ok raw) : False := by
  obtain ⟨htoken, -⟩ := mintCursor_ok.mp h
  obtain ⟨htoken', -⟩ := mintCursor_ok.mp h'
  exact purposes_differ _ _ (hinj (encodeToken_mac_inj (htoken.trans htoken'.symm)))

/-- A minted token is read as its cursor where the parser takes the fields, what a parser accepts
is the token of the value it returns, and neither parser accepts a token of the other. -/
theorem cursor_tokens (doubles : Doubles) (hmac : List UInt8 → JsString)
    (hinj : Function.Injective hmac) :
    (∀ purpose c token, mintCursor hmac c purpose = .ok token →
      (parseCursor doubles hmac token purpose = .ok c ↔ Complete c)) ∧
    (∀ purpose raw c, parseCursor doubles hmac raw purpose = .ok c →
      mintCursor hmac c purpose = .ok raw) ∧
    (∀ c raw, mintInvestigationCollectionCursor hmac c = .ok raw →
      ∀ c', parseInvestigationOperationsQueueCursor doubles hmac raw ≠ .ok c') ∧
    (∀ c raw, mintInvestigationOperationsQueueCursor hmac c = .ok raw →
      ∀ c', parseInvestigationCollectionCursor doubles hmac raw ≠ .ok c') := by
  refine ⟨fun purpose c token h => ?_, fun purpose raw c h => mint_of_parse h,
    fun c raw h c' h' => mint_disjoint hinj h (mint_of_parse h'),
    fun c raw h c' h' => mint_disjoint hinj (mint_of_parse h') h⟩
  rw [parse_mint h]
  exact and_iff_left rfl

theorem toBase64url_injective : Function.Injective toBase64url :=
  Function.LeftInverse.injective fromBase64url_toBase64url

theorem cursor_tokens_base64url : Function.Injective toBase64url ∧
    ∀ purpose raw c, parseCursor literalDoubles toBase64url raw purpose = .ok c →
      mintCursor toBase64url c purpose = .ok raw :=
  ⟨toBase64url_injective, (cursor_tokens literalDoubles toBase64url toBase64url_injective).2.1⟩

/-- A cursor that no page gives out, but that can be minted. -/
def emptyCursor : InvestigationCollectionCursor := ⟨[], false, [], [], []⟩

/-- The parser does not take back every cursor that can be minted. -/
theorem empty_cursor_not_parsed :
    ∃ token, mintInvestigationCollectionCursor toBase64url emptyCursor = .ok token ∧
      parseInvestigationCollectionCursor literalDoubles toBase64url token ≠ .ok emptyCursor := by
  have hopaque : OPAQUE_CURSOR_RE (encodeToken emptyCursor
      (macOf toBase64url (unsignedBody emptyCursor) COLLECTION_CURSOR_PURPOSE)) = true := by
    decide +kernel
  have hmint := mintCursor_ok.mpr ⟨rfl, hopaque⟩
  refine ⟨_, hmint, fun h => ?_⟩
  have hcomplete := ((parse_mint hmint).mp h).1
  exact absurd hcomplete.1 (by decide)

end

end CollectionCursor

end ContextDesk
