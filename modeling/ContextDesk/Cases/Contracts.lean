import ContextDesk.Lib.JsString
import ContextDesk.Lib.Outcome

/-!
# Contract values and their shapes

A value that arrived from outside, and the strict check of an object against a shape: no unknown
key, no missing key, no `null` where the shape has none, every field of its type. The shapes used
here are flat, so a field has no array or object type. The text of an error is its path and its
detail, without the rendering of the offending value.
-/

namespace ContextDesk

open Lib

inductive JsValue where
  | null
  | bool (b : Bool)
  | number (n : Rat)
  | string (s : JsString)
  | array (items : List JsValue)
  | object (fields : List (String × JsValue))

/-- The own property `key` of an object. -/
def ownProperty (key : String) (fields : List (String × JsValue)) : Option JsValue := fields.lookup key

def MAX_SAFE_INTEGER : Int := 2 ^ 53 - 1

/-- `Number.isSafeInteger`. -/
def isSafeInteger (n : Rat) : Bool :=
  n.den = 1 && decide (-MAX_SAFE_INTEGER ≤ n.num ∧ n.num ≤ MAX_SAFE_INTEGER)

inductive FieldMode where
  | required
  | nullable
  | optional
  deriving DecidableEq

inductive FieldType where
  | str
  | nstr
  | bool
  | u64
  | en (values : List String)

abbrev ObjectShape := List (String × FieldMode × FieldType)

def ContractViolation (path detail : String) : String := path ++ ": " ++ detail

def checkValue (path : String) : FieldType → JsValue → Outcome Unit
  | .str, .string _ => .ok ()
  | .str, _ => .error (ContractViolation path "expected string")
  | .nstr, .string s => ensure (1 ≤ s.length) (ContractViolation path "expected non-empty string")
  | .nstr, _ => .error (ContractViolation path "expected string")
  | .bool, .bool _ => .ok ()
  | .bool, _ => .error (ContractViolation path "expected boolean")
  | .u64, .number n =>
    ensure (isSafeInteger n = true ∧ 0 ≤ n)
      (ContractViolation path "expected unsigned safe integer")
  | .u64, _ => .error (ContractViolation path "expected unsigned safe integer")
  | .en values, .string s =>
    ensure (s ∈ values.map JsString.ofString)
      (ContractViolation path ("expected one of [" ++ ", ".intercalate values ++ "]"))
  | .en values, _ =>
    .error (ContractViolation path ("expected one of [" ++ ", ".intercalate values ++ "]"))

def checkField (path : String) (fields : List (String × JsValue)) :
    String × FieldMode × FieldType → Outcome Unit
  | (key, mode, type) =>
    let fieldPath := path ++ "." ++ key
    match ownProperty key fields with
    | none =>
      ensure (mode = .optional) (ContractViolation fieldPath "missing required key")
    | some .null =>
      ensure (mode = .nullable) (ContractViolation fieldPath
        (if mode = .optional then "skipped-optional field must be absent, never null"
          else "unexpected null"))
    | some value => checkValue fieldPath type value

def checkObject (path : String) (shape : ObjectShape) : JsValue → Outcome Unit
  | .object fields => do
    ensureAll (fun key => ensure (key ∈ shape.map Prod.fst)
      (ContractViolation (path ++ "." ++ key) "unknown key (contract drift)")) (fields.map Prod.fst)
    ensureAll (checkField path fields) shape
  | _ => .error (ContractViolation path "expected object")

end ContextDesk

/-!
## Server times

The server's clock is written with `toISOString`. A `DateParser` is `Date.parse`, of which only that
it reads what `toISOString` writes is used.
-/

namespace ContextDesk

open Lib

def isLeapYear (year : Nat) : Bool := year % 4 = 0 ∧ (year % 100 ≠ 0 ∨ year % 400 = 0)

def daysInMonth (year month : Nat) : Nat :=
  [31, if isLeapYear year then 29 else 28, 31, 30, 31, 30, 31, 31, 30, 31, 30, 31].getD (month - 1) 0

/-- An instant that the clock shows, before the year 10000. -/
structure UtcTime where
  year : Nat
  month : Nat
  day : Nat
  hour : Nat
  minute : Nat
  second : Nat
  millisecond : Nat
  valid : year < 10000 ∧ 1 ≤ month ∧ month ≤ 12 ∧ 1 ≤ day ∧ day ≤ daysInMonth year month ∧
    hour < 24 ∧ minute < 60 ∧ second < 60 ∧ millisecond < 1000

def digit (n : Nat) : UInt16 := UInt16.ofNat (48 + n % 10)

def UtcTime.toISOString (t : UtcTime) : JsString :=
  [digit (t.year / 1000), digit (t.year / 100), digit (t.year / 10), digit t.year, 45,
    digit (t.month / 10), digit t.month, 45, digit (t.day / 10), digit t.day, 84,
    digit (t.hour / 10), digit t.hour, 58, digit (t.minute / 10), digit t.minute, 58,
    digit (t.second / 10), digit t.second, 46,
    digit (t.millisecond / 100), digit (t.millisecond / 10), digit t.millisecond, 90]

structure DateParser where
  /-- `Date.parse`, `none` for `NaN`. -/
  parse : JsString → Option Int
  parse_toISOString : ∀ t : UtcTime, (parse t.toISOString).isSome = true

def isDigit (u : UInt16) : Bool := 48 ≤ u && u ≤ 57

/-- The unit classes of `\d{4}-\d{2}-\d{2}T\d{2}:\d{2}:\d{2}`. -/
def ZONED_INSTANT_HEAD : List (UInt16 → Bool) :=
  let d := isDigit
  [d, d, d, d, (· == 45), d, d, (· == 45), d, d, (· == 84), d, d, (· == 58), d, d, (· == 58), d, d]

/-- `Z|[+-]\d{2}:\d{2}`. -/
def isZone : JsString → Bool
  | [u] => u == 90
  | [sign, a, b, colon, c, d] =>
    (sign == 43 || sign == 45) && isDigit a && isDigit b && colon == 58 && isDigit c && isDigit d
  | _ => false

/-- `ZONED_INSTANT_RE`. -/
def isZonedInstant (s : JsString) : Bool :=
  let rest := s.drop 19
  (s.take 19).length == 19 && (List.zipWith (fun p u => p u) ZONED_INSTANT_HEAD s).all id &&
    match rest with
    | 46 :: fraction =>
      let digits := fraction.takeWhile isDigit
      1 ≤ digits.length && digits.length ≤ 3 && isZone (fraction.dropWhile isDigit)
    | rest => isZone rest

def DateParser.isIsoInstant (date : DateParser) (s : JsString) : Bool :=
  isZonedInstant s && (date.parse s).isSome

theorem isDigit_digit (n : Nat) : isDigit (digit n) = true := by
  have h : ∀ k < 10, isDigit (UInt16.ofNat (48 + k)) = true := by decide
  exact h (n % 10) (Nat.mod_lt n (by decide))

theorem UtcTime.ascii (t : UtcTime) : ∀ u ∈ t.toISOString, 0x2d ≤ u ∧ u ≤ 0x5a := by
  have h : ∀ n, 0x2d ≤ digit n ∧ digit n ≤ 0x5a := by
    intro n
    have h : ∀ k < 10, 0x2d ≤ UInt16.ofNat (48 + k) ∧ UInt16.ofNat (48 + k) ≤ 0x5a := by decide
    exact h (n % 10) (Nat.mod_lt n (by decide))
  intro u hu
  simp only [UtcTime.toISOString, List.mem_cons, List.not_mem_nil, or_false] at hu
  rcases hu with rfl | rfl | rfl | rfl | rfl | rfl | rfl | rfl | rfl | rfl | rfl | rfl | rfl | rfl |
    rfl | rfl | rfl | rfl | rfl | rfl | rfl | rfl | rfl | rfl <;> first | exact h _ | decide

theorem isZonedInstant_toISOString (t : UtcTime) : isZonedInstant t.toISOString = true := by
  have hend : isDigit 90 = false := by decide
  simp [isZonedInstant, UtcTime.toISOString, ZONED_INSTANT_HEAD, isDigit_digit, isZone, hend]

theorem DateParser.isIsoInstant_toISOString (date : DateParser) (t : UtcTime) :
    date.isIsoInstant t.toISOString = true := by
  rw [DateParser.isIsoInstant, isZonedInstant_toISOString, date.parse_toISOString]
  rfl

def plainDate : DateParser where
  parse s := if isZonedInstant s then some 0 else none
  parse_toISOString t := by
    rw [isZonedInstant_toISOString]
    rfl

end ContextDesk
