import Mathlib.Data.List.DropRight

/-!
# Strings as UTF-16 units

A string of the server's language is a list of 16-bit units, lone surrogates included, and its
length is the number of units. `trim` drops white space and line terminators on both sides;
trimming twice is trimming once.
-/

namespace ContextDesk.Lib

abbrev JsString := List UInt16

namespace JsString

instance lawfulBEq_units : LawfulBEq JsString := inferInstance

instance lawfulBEq_pair : LawfulBEq (JsString × Nat) := inferInstance

/-- The units of a character: itself, or its surrogate pair. -/
def unitsOf (c : Char) : List UInt16 :=
  if c.toNat < 0x10000 then [UInt16.ofNat c.toNat]
  else [UInt16.ofNat (0xd800 + (c.toNat - 0x10000) / 0x400), UInt16.ofNat (0xdc00 + c.toNat % 0x400)]

/-- A literal of the source. -/
def ofString (s : String) : JsString := s.toList.flatMap unitsOf

/-- White space and line terminators. -/
def isWhiteSpace (u : UInt16) : Bool :=
  (9 ≤ u && u ≤ 13) || u == 0x20 || u == 0xa0 || u == 0x1680 || (0x2000 ≤ u && u ≤ 0x200a) ||
    u == 0x2028 || u == 0x2029 || u == 0x202f || u == 0x205f || u == 0x3000 || u == 0xfeff

/-- `String.prototype.trim`. -/
def trim (s : JsString) : JsString := (s.dropWhile isWhiteSpace).rdropWhile isWhiteSpace

/-- Nothing is to be trimmed at the front of a trimmed string. -/
theorem dropWhile_trim (s : JsString) : (trim s).dropWhile isWhiteSpace = trim s := by
  refine List.dropWhile_eq_self_iff.mpr fun hl => ?_
  have hprefix := List.rdropWhile_prefix isWhiteSpace (s.dropWhile isWhiteSpace)
  have hfirst := Nat.lt_of_lt_of_le hl hprefix.length_le
  have hhead : (trim s)[0] = (s.dropWhile isWhiteSpace)[0] := hprefix.getElem hl
  rw [hhead]
  exact List.dropWhile_get_zero_not isWhiteSpace s hfirst

theorem trim_trim (s : JsString) : trim (trim s) = trim s := by
  show ((trim s).dropWhile isWhiteSpace).rdropWhile isWhiteSpace = trim s
  rw [dropWhile_trim]
  exact List.rdropWhile_idempotent isWhiteSpace _

end JsString

end ContextDesk.Lib
