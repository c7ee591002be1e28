import ContextDesk.Portable.Canonical

/-!
# What the canonical text keeps

The canonical text of a value is read back as the value, and tells it from every other, as long as
the value is `Kept`: an assignment to `__proto__` adds no member, and `JSON.stringify` writes null
for a number that is not finite. `canonicalJson_faithful_iff` says that nothing else is lost.
-/

namespace ContextDesk

open Lib Lib.ParsedJson List

variable {doubles : Doubles}

/-- `canonicalJson` of a value that was parsed. -/
def canonicalText (v : ParsedJson doubles.Number) : JsString := canonicalJson v.written

mutual

/-- No object has the key `__proto__`, and every number is finite. -/
def Kept : ParsedJson doubles.Number → Prop
  | .number x => (doubles.print x).isSome
  | .array items => KeptItems items
  | .object fields => KeptFields fields
  | .null => True
  | .bool _ => True
  | .string _ => True

def KeptItems : List (ParsedJson doubles.Number) → Prop
  | [] => True
  | v :: vs => Kept v ∧ KeptItems vs

def KeptFields : List (JsString × ParsedJson doubles.Number) → Prop
  | [] => True
  | (k, v) :: fs => (k ≠ JsString.ofString "__proto__" ∧ Kept v) ∧ KeptFields fs

end

def RoundTrips (v : ParsedJson doubles.Number) : Prop :=
  ∃ u, jsonParse doubles (canonicalText v) = some u ∧ Same v u

variable {fs : List (JsString × ParsedJson doubles.Number)}

theorem keptFields_iff :
    KeptFields fs ↔ ∀ m ∈ fs, m.1 ≠ JsString.ofString "__proto__" ∧ Kept m.2 := by
  induction fs with
  | nil => simp [KeptFields]
  | cons m fs ih => rw [KeptFields, ih, forall_mem_cons]

/-! ## Members -/

theorem writtenFields_eq_map (fs : List (JsString × ParsedJson doubles.Number)) :
    writtenFields fs = fs.map fun m => (m.1, m.2.written) := by
  induction fs with
  | nil => rfl
  | cons m fs ih => rw [writtenFields, ih, map_cons]

theorem readFields_eq_map (fs : List (JsString × JsonValue)) :
    JsonValue.readFields doubles fs = fs.map fun m => (m.1, m.2.readBack doubles) := by
  induction fs with
  | nil => rfl
  | cons m fs ih => rw [JsonValue.readFields, ih, map_cons]

/-- The member with the value that is written for it. -/
def canonicalMember (m : JsString × ParsedJson doubles.Number) : JsString × JsonValue :=
  (m.1, canonicalValue m.2.written)

theorem canonicalMembers_written (fs : List (JsString × ParsedJson doubles.Number)) :
    canonicalMembers (writtenFields fs) = fs.map canonicalMember := by
  rw [writtenFields_eq_map, canonicalMembers_eq_map, map_map]
  rfl

theorem keys_canonicalMember (fs : List (JsString × ParsedJson doubles.Number)) :
    (fs.map canonicalMember).map Prod.fst = fs.map Prod.fst := by
  rw [map_map]
  rfl

theorem proto_notMem (h : KeptFields fs) :
    JsString.ofString "__proto__" ∉ (fs.map canonicalMember).map Prod.fst := by
  rw [keys_canonicalMember]
  intro hmem
  obtain ⟨m, hm, hkey⟩ := mem_map.mp hmem
  exact (keptFields_iff.mp h m hm).1 hkey

theorem mem_ownMembers_written {member : JsString × JsonValue}
    (h : member ∈ ownMembers (canonicalMembers (writtenFields fs))) :
    member.1 ≠ JsString.ofString "__proto__" ∧ ∃ m ∈ fs, canonicalMember m = member := by
  rw [canonicalMembers_written] at h
  obtain ⟨hmem, hkey⟩ := mem_ownMembers h
  exact ⟨hkey, mem_map.mp hmem⟩

/-! ## Reading the canonical text -/

mutual

theorem literals_written : ∀ v : ParsedJson doubles.Number, (canonicalValue v.written).Literals
  | .number x => by
    rw [written]
    cases hprint : doubles.print x with
    | none => trivial
    | some t => exact doubles.print_literal hprint
  | .array items => literals_writtenItems items
  | .object fields => by
    rw [written, canonicalValue, JsonValue.Literals, JsonValue.literalsFields_iff]
    intro member hmem
    obtain ⟨-, m, hm, rfl⟩ := mem_ownMembers_written hmem
    exact literals_writtenFields fields m hm
  | .null => trivial
  | .bool _ => trivial
  | .string _ => trivial

theorem literals_writtenItems : ∀ vs : List (ParsedJson doubles.Number),
    JsonValue.LiteralsItems (canonicalItems (writtenItems vs))
  | [] => trivial
  | v :: vs => ⟨literals_written v, literals_writtenItems vs⟩

theorem literals_writtenFields : ∀ (fs : List (JsString × ParsedJson doubles.Number)),
    ∀ m ∈ fs, (canonicalValue m.2.written).Literals
  | [], _, hm => absurd hm not_mem_nil
  | (k, v) :: fs, m, hm => by
    rcases mem_cons.mp hm with rfl | hm
    · exact literals_written v
    · exact literals_writtenFields fs m hm

end

theorem jsonParse_canonicalText (v : ParsedJson doubles.Number) :
    jsonParse doubles (canonicalText v) = some ((canonicalValue v.written).readBack doubles) :=
  JsonValue.jsonParse_stringify (literals_written v)

mutual

theorem same_readBack : ∀ v : ParsedJson doubles.Number, v.DistinctKeys → Kept v →
    Same v ((canonicalValue v.written).readBack doubles)
  | .number x, _, hkept => by
    obtain ⟨t, hprint⟩ := Option.isSome_iff_exists.mp hkept
    have hread := (doubles.same_iff hprint (doubles.read t)).mpr (doubles.print_read hprint)
    rw [written, hprint]
    exact .number hread
  | .array items, hdistinct, hkept => .array (same_readItems items hdistinct hkept)
  | .object fields, hdistinct, hkept => by
    have hown := perm_ownMembers (fields.map canonicalMember) (proto_notMem hkept)
    rw [written, canonicalValue, canonicalMembers_written, JsonValue.readBack]
    refine .object (same_readFields fields hdistinct.2 hkept) ?_
    have hread : (JsonValue.readFields doubles (ownMembers (fields.map canonicalMember))).Perm
        (JsonValue.readFields doubles (fields.map canonicalMember)) := by
      rw [readFields_eq_map, readFields_eq_map]
      exact hown.map _
    refine ((ofPairs_perm ?_).trans hread).symm
    rw [(hread.map Prod.fst).nodup_iff, readFields_eq_map, map_map]
    exact (keys_canonicalMember fields).symm ▸ hdistinct.1
  | .null, _, _ => .null
  | .bool b, _, _ => .bool b
  | .string s, _, _ => .string s

theorem same_readItems : ∀ vs : List (ParsedJson doubles.Number), DistinctKeysItems vs →
    KeptItems vs → SameItems vs (JsonValue.readItems doubles (canonicalItems (writtenItems vs)))
  | [], _, _ => .nil
  | v :: vs, hdistinct, hkept =>
    .cons (same_readBack v hdistinct.1 hkept.1) (same_readItems vs hdistinct.2 hkept.2)

theorem same_readFields : ∀ fs : List (JsString × ParsedJson doubles.Number),
    DistinctKeysFields fs → KeptFields fs →
    SameFields fs (JsonValue.readFields doubles (fs.map canonicalMember))
  | [], _, _ => .nil
  | (_, v) :: fs, hdistinct, hkept =>
    .cons (same_readBack v hdistinct.1 hkept.1.2) (same_readFields fs hdistinct.2 hkept.2)

end

/-! ## One text for the values that are the same -/

mutual

theorem canonicalValue_same : ∀ {v w : ParsedJson doubles.Number}, v.DistinctKeys → Kept v →
    Same v w → canonicalValue v.written = canonicalValue w.written
  | .number x, w, _, hkept, h => by
    obtain ⟨t, hprint⟩ := Option.isSome_iff_exists.mp hkept
    cases h with
    | number h => rw [written, written, hprint, (doubles.same_iff hprint _).mp h]
  | .array items, w, hdistinct, hkept, h => by
    cases h with
    | array h => rw [written, written, canonicalValue, canonicalValue,
        canonicalItems_same hdistinct hkept h]
  | .object fields, w, hdistinct, hkept, h => by
    cases h with
    | @object fs gs hs h perm =>
      have hmap := canonicalMembers_same hdistinct.2 hkept h
      rw [written, written, canonicalValue, canonicalValue, canonicalMembers_written,
        canonicalMembers_written, ownMembers_eq_of_perm (hmap ▸ perm.map canonicalMember)
          (keys_canonicalMember fields ▸ hdistinct.1) (proto_notMem hkept)]
  | .null, w, _, _, h => by cases h; rfl
  | .bool _, w, _, _, h => by cases h; rfl
  | .string _, w, _, _, h => by cases h; rfl

theorem canonicalItems_same : ∀ {vs ws : List (ParsedJson doubles.Number)}, DistinctKeysItems vs →
    KeptItems vs → SameItems vs ws →
    canonicalItems (writtenItems vs) = canonicalItems (writtenItems ws)
  | [], _, _, _, h => by cases h; rfl
  | v :: vs, _, hdistinct, hkept, h => by
    cases h with
    | cons head tail =>
      rw [writtenItems, writtenItems, canonicalItems, canonicalItems,
        canonicalValue_same hdistinct.1 hkept.1 head, canonicalItems_same hdistinct.2 hkept.2 tail]

theorem canonicalMembers_same : ∀ {fs gs : List (JsString × ParsedJson doubles.Number)},
    DistinctKeysFields fs → KeptFields fs → SameFields fs gs →
    fs.map canonicalMember = gs.map canonicalMember
  | [], _, _, _, h => by cases h; rfl
  | (k, v) :: fs, _, hdistinct, hkept, h => by
    cases h with
    | cons head tail =>
      rw [map_cons, map_cons, canonicalMember, canonicalMember,
        canonicalValue_same hdistinct.1 hkept.1.2 head, canonicalMembers_same hdistinct.2 hkept.2 tail]

end

mutual

theorem same_of_canonicalValue : ∀ {v w : ParsedJson doubles.Number}, Kept v → Kept w →
    canonicalValue v.written = canonicalValue w.written → Same v w
  | .number x, w, hv, hw, h => by
    obtain ⟨t, hprint⟩ := Option.isSome_iff_exists.mp hv
    cases w with
    | number y =>
      obtain ⟨t', hprint'⟩ := Option.isSome_iff_exists.mp hw
      rw [written, written, hprint, hprint'] at h
      obtain rfl := JsonValue.number.inj h
      exact .number ((doubles.same_iff hprint y).mpr hprint')
    | _ => simp [written, canonicalValue, hprint] at h
  | .array vs, w, hv, hw, h => by
    cases w with
    | array ws =>
      rw [written, written, canonicalValue, canonicalValue, JsonValue.array.injEq] at h
      exact .array (same_of_canonicalItems hv hw h)
    | number y =>
      obtain ⟨t', hprint'⟩ := Option.isSome_iff_exists.mp hw
      simp [written, canonicalValue, hprint'] at h
    | _ => simp [written, canonicalValue] at h
  | .object fs, w, hv, hw, h => by
    cases w with
    | object gs =>
      rw [written, written, canonicalValue, canonicalValue, JsonValue.object.injEq,
        canonicalMembers_written, canonicalMembers_written] at h
      have hown := perm_ownMembers (fs.map canonicalMember) (proto_notMem hv)
      have hown' := perm_ownMembers (gs.map canonicalMember) (proto_notMem hw)
      have hperm := hown.symm.trans (h ▸ hown')
      -- the members of the second in the order of the first
      obtain ⟨hs, hmap, hgs⟩ :=
        (congr_fun₂ (eq_map_comp_perm (@canonicalMember doubles)) _ gs).mpr hperm
      have hkept : KeptFields hs :=
        keptFields_iff.mpr fun m hm => keptFields_iff.mp hw m (hgs.mem_iff.mp hm)
      exact .object (same_of_canonicalMembers hv hkept hmap) hgs
    | number y =>
      obtain ⟨t', hprint'⟩ := Option.isSome_iff_exists.mp hw
      simp [written, canonicalValue, hprint'] at h
    | _ => simp [written, canonicalValue] at h
  | .null, w, _, hw, h => by
    cases w with
    | null => exact .null
    | number y =>
      obtain ⟨t', hprint'⟩ := Option.isSome_iff_exists.mp hw
      simp [written, canonicalValue, hprint'] at h
    | _ => simp [written, canonicalValue] at h
  | .bool b, w, _, hw, h => by
    cases w with
    | bool c =>
      obtain rfl := JsonValue.bool.inj h
      exact .bool b
    | number y =>
      obtain ⟨t', hprint'⟩ := Option.isSome_iff_exists.mp hw
      simp [written, canonicalValue, hprint'] at h
    | _ => simp [written, canonicalValue] at h
  | .string s, w, _, hw, h => by
    cases w with
    | string t =>
      obtain rfl := JsonValue.string.inj h
      exact .string s
    | number y =>
      obtain ⟨t', hprint'⟩ := Option.isSome_iff_exists.mp hw
      simp [written, canonicalValue, hprint'] at h
    | _ => simp [written, canonicalValue] at h

theorem same_of_canonicalItems : ∀ {vs ws : List (ParsedJson doubles.Number)}, KeptItems vs →
    KeptItems ws → canonicalItems (writtenItems vs) = canonicalItems (writtenItems ws) →
    SameItems vs ws
  | [], [], _, _, _ => .nil
  | [], _ :: _, _, _, h => by simp [writtenItems, canonicalItems] at h
  | _ :: _, [], _, _, h => by simp [writtenItems, canonicalItems] at h
  | v :: vs, w :: ws, hv, hw, h => by
    simp only [writtenItems, canonicalItems, cons.injEq] at h
    exact .cons (same_of_canonicalValue hv.1 hw.1 h.1) (same_of_canonicalItems hv.2 hw.2 h.2)

theorem same_of_canonicalMembers : ∀ {fs gs : List (JsString × ParsedJson doubles.Number)},
    KeptFields fs → KeptFields gs → fs.map canonicalMember = gs.map canonicalMember →
    SameFields fs gs
  | [], [], _, _, _ => .nil
  | [], _ :: _, _, _, h => by simp at h
  | _ :: _, [], _, _, h => by simp at h
  | (k, v) :: fs, (k', w) :: gs, hv, hw, h => by
    simp only [map_cons, canonicalMember, cons.injEq, Prod.mk.injEq] at h
    obtain ⟨⟨rfl, hvalue⟩, hrest⟩ := h
    exact .cons (same_of_canonicalValue hv.1.2 hw.1.2 hvalue)
      (same_of_canonicalMembers hv.2 hw.2 hrest)

end

/-! ## What is lost -/

mutual

theorem kept_readBack : ∀ v : ParsedJson doubles.Number,
    Kept ((canonicalValue v.written).readBack doubles)
  | .number x => by
    rw [written]
    cases hprint : doubles.print x with
    | none => trivial
    | some t =>
      show (doubles.print (doubles.read t)).isSome
      rw [doubles.print_read hprint]
      rfl
  | .array items => kept_readItems items
  | .object fields => by
    rw [written, canonicalValue, JsonValue.readBack, Kept, keptFields_iff]
    intro m hm
    have hm := mem_ofPairs hm
    rw [readFields_eq_map] at hm
    obtain ⟨member, hmember, rfl⟩ := mem_map.mp hm
    obtain ⟨hkey, old, hold, rfl⟩ := mem_ownMembers_written hmember
    exact ⟨hkey, kept_readFields fields old hold⟩
  | .null => trivial
  | .bool _ => trivial
  | .string _ => trivial

theorem kept_readItems : ∀ vs : List (ParsedJson doubles.Number),
    KeptItems (JsonValue.readItems doubles (canonicalItems (writtenItems vs)))
  | [] => trivial
  | v :: vs => ⟨kept_readBack v, kept_readItems vs⟩

theorem kept_readFields : ∀ fs : List (JsString × ParsedJson doubles.Number), ∀ m ∈ fs,
    Kept ((canonicalValue m.2.written).readBack doubles)
  | [], _, hm => absurd hm not_mem_nil
  | (k, v) :: fs, m, hm => by
    rcases mem_cons.mp hm with rfl | hm
    · exact kept_readBack v
    · exact kept_readFields fs m hm

end

mutual

theorem kept_of_same : ∀ {v w : ParsedJson doubles.Number}, Same v w → Kept w → Kept v
  | .number x, _, .number (y := y) h, hw => by
    obtain ⟨t, hprint⟩ := Option.isSome_iff_exists.mp hw
    rw [doubles.same_comm] at h
    exact Option.isSome_iff_exists.mpr ⟨t, (doubles.same_iff hprint x).mp h⟩
  | .array vs, _, .array h, hw => kept_of_sameItems h hw
  | .object fs, _, .object h perm, hw =>
    kept_of_sameFields h (keptFields_iff.mpr fun m hm => keptFields_iff.mp hw m (perm.mem_iff.mp hm))
  | .null, _, _, _ => trivial
  | .bool _, _, _, _ => trivial
  | .string _, _, _, _ => trivial

theorem kept_of_sameItems : ∀ {vs ws : List (ParsedJson doubles.Number)}, SameItems vs ws →
    KeptItems ws → KeptItems vs
  | [], _, _, _ => trivial
  | _ :: _, _, .cons head tail, hw => ⟨kept_of_same head hw.1, kept_of_sameItems tail hw.2⟩

theorem kept_of_sameFields : ∀ {fs gs : List (JsString × ParsedJson doubles.Number)},
    SameFields fs gs → KeptFields gs → KeptFields fs
  | [], _, _, _ => trivial
  | _ :: _, _, .cons head tail, hw =>
    ⟨⟨hw.1.1, kept_of_same head hw.1.2⟩, kept_of_sameFields tail hw.2⟩

end

/-- The canonical texts of two parsed values are read back as the values, and are equal exactly when
the values are, if and only if nothing of the values is lost. -/
theorem canonicalJson_faithful_iff {s t : JsString} {v w : ParsedJson doubles.Number}
    (hv : jsonParse doubles s = some v) (hw : jsonParse doubles t = some w) :
    (RoundTrips v ∧ RoundTrips w ∧ (canonicalText v = canonicalText w ↔ Same v w)) ↔
      Kept v ∧ Kept w := by
  constructor
  · rintro ⟨⟨u, hu, hsame⟩, ⟨u', hu', hsame'⟩, -⟩
    rw [jsonParse_canonicalText] at hu hu'
    cases hu
    cases hu'
    exact ⟨kept_of_same hsame (kept_readBack v), kept_of_same hsame' (kept_readBack w)⟩
  · rintro ⟨hkv, hkw⟩
    have hdv := jsonParse_distinctKeys hv
    have hdw := jsonParse_distinctKeys hw
    refine ⟨⟨_, jsonParse_canonicalText v, same_readBack v hdv hkv⟩,
      ⟨_, jsonParse_canonicalText w, same_readBack w hdw hkw⟩, fun h => ?_, fun h => ?_⟩
    · exact same_of_canonicalValue hkv hkw (canonicalJson_inj h)
    · exact congrArg JsonValue.stringify (canonicalValue_same hdv hkv h)

def literalDoubles : Doubles where
  Number := Option {t : NumberText // isLiteral t.text = true}
  read t := if h : isLiteral t.text = true then some ⟨t, h⟩ else none
  print x := x.map Subtype.val
  same x y := x.map (·.val.text) == y.map (·.val.text)
  print_literal := by
    intro x t h
    obtain ⟨u, rfl, rfl⟩ := Option.map_eq_some_iff.mp h
    exact u.2
  print_safe n _ := by
    rw [dif_pos (isLiteral_decimal n)]
    rfl
  print_read := by
    intro x t h
    obtain ⟨u, rfl, rfl⟩ := Option.map_eq_some_iff.mp h
    rw [dif_pos u.2]
    rfl
  same_comm x y := by rw [Bool.eq_iff_iff, beq_iff_eq, beq_iff_eq, eq_comm]
  same_iff := by
    intro x t h y
    obtain ⟨u, rfl, rfl⟩ := Option.map_eq_some_iff.mp h
    rw [beq_iff_eq]
    cases y with
    | none => simp
    | some w =>
      simp only [Option.map_some, Option.some.injEq]
      exact ⟨fun heq => NumberText.ext_text heq.symm, fun heq => heq ▸ rfl⟩

/-- An object with one member, whose value is 1. -/
def oneMember (key : String) : JsonValue :=
  .object [(JsString.ofString key, .number (JsonText.decimal 1))]

def parsedMember (key : String) : ParsedJson literalDoubles.Number :=
  .object [(JsString.ofString key, .number (literalDoubles.read (JsonText.decimal 1)))]

theorem jsonParse_oneMember (key : String) :
    jsonParse literalDoubles (oneMember key).stringify = some (parsedMember key) := by
  have hpairs : ∀ member : JsString × ParsedJson literalDoubles.Number,
      ofPairs [member] = [member] := fun member =>
    perm_singleton.mp (ofPairs_perm (nodup_singleton member.1))
  rw [JsonValue.jsonParse_stringify (v := oneMember key) ⟨isLiteral_decimal 1, trivial⟩, oneMember,
    JsonValue.readBack, JsonValue.readFields, JsonValue.readFields, hpairs]
  rfl

theorem canonicalJson_faithful_member :
    RoundTrips (parsedMember "b") ∧ RoundTrips (parsedMember "b") ∧
      (canonicalText (parsedMember "b") = canonicalText (parsedMember "b") ↔
        Same (parsedMember "b") (parsedMember "b")) := by
  have hkept : Kept (parsedMember "b") :=
    ⟨⟨by decide, Option.isSome_iff_exists.mpr ⟨JsonText.decimal 1, rfl⟩⟩, trivial⟩
  exact (canonicalJson_faithful_iff (jsonParse_oneMember "b") (jsonParse_oneMember "b")).mpr
    ⟨hkept, hkept⟩

/-- `{"__proto__":1}` has the canonical text of `{}`. -/
theorem proto_lost :
    jsonParse literalDoubles (oneMember "__proto__").stringify = some (parsedMember "__proto__") ∧
    jsonParse literalDoubles [0x7b, 0x7d] = some (.object []) ∧
    canonicalText (parsedMember "__proto__") = @canonicalText literalDoubles (.object []) ∧
    ¬ Same (parsedMember "__proto__") (.object []) ∧ ¬ RoundTrips (parsedMember "__proto__") := by
  have hempty : jsonParse literalDoubles [0x7b, 0x7d] = some (.object []) :=
    JsonValue.jsonParse_stringify (v := .object []) trivial
  have htext : canonicalText (parsedMember "__proto__") = [0x7b, 0x7d] := by
    simp [canonicalText, canonicalJson, parsedMember, written, writtenFields, canonicalValue,
      canonicalMembers, ownMembers, JsonValue.stringify]
  have hsame : ¬ Same (parsedMember "__proto__") (.object []) := by
    rintro (_ | _ | _ | _ | _ | ⟨h, perm⟩)
    cases h
    exact absurd perm.length_eq (by simp)
  refine ⟨jsonParse_oneMember _, hempty, htext, hsame, ?_⟩
  rintro ⟨u, hu, hu'⟩
  rw [htext, hempty] at hu
  cases hu
  exact hsame hu'

end ContextDesk
