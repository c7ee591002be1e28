import ContextDesk.Lib.Outcome

/-!
# JSON values

A JSON value with its object members in order. Text columns that hold JSON are modelled by the
value they denote, so that reading back what was written is the identity; `encodedLen` is the
number of bytes of the compact encoding, for the writers that bound it. Integers are kept as
integers, every other number by its text.
-/

namespace ContextDesk.Lib

inductive Json where
  | null
  | bool (b : Bool)
  | int (n : Int)
  | float (text : String)
  | str (s : String)
  | arr (items : List Json)
  | obj (fields : List (String × Json))

namespace Json

/-- Bytes of one character inside a quoted string. -/
def charLen (c : Char) : Nat :=
  if c = '"' ∨ c = '\\' ∨ c = '\x08' ∨ c = '\t' ∨ c = '\n' ∨ c = '\x0c' ∨ c = '\r' then 2
  else if c.toNat < 0x20 then 6
  else c.utf8Size

/-- Bytes of a quoted string, quotes included. -/
def textLen (s : String) : Nat := 2 + (s.toList.map charLen).sum

mutual

/-- Bytes of the compact encoding. -/
def encodedLen : Json → Nat
  | null => 4
  | bool b => if b then 4 else 5
  | int n => (toString n).utf8ByteSize
  | float text => text.utf8ByteSize
  | str s => textLen s
  | arr items => 2 + itemsLen items
  | obj fields => 2 + fieldsLen fields

def itemsLen : List Json → Nat
  | [] => 0
  | x :: xs => encodedLen x + (if xs.isEmpty then 0 else 1) + itemsLen xs

/-- Bytes of the members of an object, their separators included. -/
def fieldsLen : List (String × Json) → Nat
  | [] => 0
  | (k, v) :: fs => textLen k + 1 + encodedLen v + (if fs.isEmpty then 0 else 1) + fieldsLen fs

end

/-- Dropping members of an object never lengthens its encoding. -/
theorem fieldsLen_sublist {fs gs : List (String × Json)} (h : fs.Sublist gs) :
    fieldsLen fs ≤ fieldsLen gs := by
  induction h with
  | slnil => exact Nat.le_refl _
  | cons a _ ih =>
    obtain ⟨k, v⟩ := a
    simp only [fieldsLen]
    omega
  | @cons_cons l₁ l₂ a hs ih =>
    obtain ⟨k, v⟩ := a
    have hsep : (if l₁.isEmpty then 0 else 1) ≤ if l₂.isEmpty then 0 else 1 := by
      cases l₂ with
      | nil => simp [List.sublist_nil.mp hs]
      | cons _ _ => split <;> simp
    simp only [fieldsLen]
    omega

/-- The member of an object under `key`. -/
def field? (key : String) : Json → Option Json
  | obj fields => fields.lookup key
  | _ => none

def str? : Json → Option String
  | str s => some s
  | _ => none

def int? : Json → Option Int
  | int n => some n
  | _ => none

def nat? : Json → Option Nat
  | int (.ofNat n) => some n
  | _ => none

end Json

end ContextDesk.Lib

/-!
## The compact text of a JSON value

What `serde_json` writes: no blanks, and escapes for quotes, backslashes and the characters below
the blank. The members of an object stand in the order of the value.
-/

namespace ContextDesk.Lib.Json

def hexDigitChar (n : Nat) : Char := if n < 10 then Char.ofNat (48 + n) else Char.ofNat (87 + n)

def escapeChar (c : Char) : List Char :=
  if c = '"' then ['\\', '"']
  else if c = '\\' then ['\\', '\\']
  else if c = '\x08' then ['\\', 'b']
  else if c = '\t' then ['\\', 't']
  else if c = '\n' then ['\\', 'n']
  else if c = '\x0c' then ['\\', 'f']
  else if c = '\r' then ['\\', 'r']
  else if c.toNat < 0x20 then
    "\\u00".toList ++ [hexDigitChar (c.toNat / 16), hexDigitChar (c.toNat % 16)]
  else [c]

def writeText (s : String) : List Char := '"' :: (s.toList.flatMap escapeChar ++ ['"'])

mutual

def write : Json → List Char
  | null => "null".toList
  | bool b => if b then "true".toList else "false".toList
  | int n => (toString n).toList
  | float text => text.toList
  | str s => writeText s
  | arr items => '[' :: (writeItems items ++ [']'])
  | obj fields => '\x7b' :: (writeFields fields ++ ['\x7d'])

def writeItems : List Json → List Char
  | [] => []
  | x :: xs => write x ++ (if xs.isEmpty then [] else [',']) ++ writeItems xs

def writeFields : List (String × Json) → List Char
  | [] => []
  | (k, v) :: fs =>
    writeText k ++ ':' :: write v ++ (if fs.isEmpty then [] else [',']) ++ writeFields fs

end

end ContextDesk.Lib.Json
