import ContextDesk.Temporal.Occurrence

/-!
# Reading calendar texts

The patterns accept the texts of the six forms and no others, and `classify` accepts a text exactly
when what it states is real and not before the year 100 (`classify_ok`).
-/

open List

namespace ContextDesk

open Lib Lib.Calendar

/-! ## Digits -/

theorem readNumber_concat (s : JsString) (u : UInt16) :
    readNumber (s ++ [u]) = 10 * readNumber s + (u.toNat - 48) := by
  simp [readNumber]

theorem readNumber_pad {w n : Nat} (h : n < 10 ^ w) : readNumber (pad w n) = n := by
  induction w generalizing n with
  | zero =>
    simp at h
    subst h
    rfl
  | succ w ih =>
    rw [Nat.pow_succ] at h
    rw [pad, readNumber_concat, ih (by omega), toNat_digit]
    omega

theorem isDigit_pad {w n : Nat} : (pad w n).all isDigit = true := by
  induction w generalizing n with
  | zero => rfl
  | succ w ih => simp [pad, ih, isDigit_digit]

theorem digit_of_isDigit {u : UInt16} (h : isDigit u = true) (n : Nat) :
    digit (10 * n + (u.toNat - 48)) = u ∧ u.toNat - 48 < 10 := by
  simp only [isDigit, Bool.and_eq_true, decide_eq_true_eq, UInt16.le_iff_toNat_le] at h
  have hlow : 48 ≤ u.toNat := h.1
  have hhigh : u.toNat ≤ 57 := h.2
  refine ⟨?_, by omega⟩
  rw [← UInt16.toNat_inj, toNat_digit]
  omega

variable {s : JsString}

theorem pad_readNumber (h : s.all isDigit = true) :
    pad s.length (readNumber s) = s ∧ readNumber s < 10 ^ s.length := by
  induction s using List.reverseRecOn with
  | nil => exact ⟨rfl, by decide⟩
  | append_singleton s u ih =>
    rw [all_append, Bool.and_eq_true] at h
    obtain ⟨hpad, hlt⟩ := ih h.1
    obtain ⟨hdigit, hu⟩ := digit_of_isDigit (by simpa using h.2) (readNumber s)
    rw [readNumber_concat, length_append, length_singleton]
    constructor
    · rw [pad, hdigit]
      rw [show (10 * readNumber s + (u.toNat - 48)) / 10 = readNumber s by omega, hpad]
    · rw [Nat.pow_succ]
      omega

/-! ## Patterns -/

/-- The text of a pattern with the numbers in its groups. -/
def render : List Piece → List Nat → JsString
  | .unit u :: pieces, groups => u :: render pieces groups
  | .number w :: pieces, n :: groups => pad w n ++ render pieces groups
  | _, _ => []

def Fits : List Piece → List Nat → Prop
  | [], groups => groups = []
  | .unit _ :: pieces, groups => Fits pieces groups
  | .number _ :: _, [] => False
  | .number w :: pieces, n :: groups => n < 10 ^ w ∧ Fits pieces groups

variable {pieces : List Piece} {groups : List Nat}

theorem exec_render (h : Fits pieces groups) (s : JsString) :
    exec pieces (render pieces groups ++ s) = some (groups, s) := by
  induction pieces generalizing groups with
  | nil =>
    cases groups with
    | nil => rfl
    | cons n groups => cases h
  | cons piece pieces ih =>
    cases piece with
    | unit u =>
      simp only [render, cons_append, exec, if_true]
      exact ih h
    | number w =>
      cases groups with
      | nil => cases h
      | cons n groups =>
        have htake : (pad w n ++ (render pieces groups ++ s)).take w = pad w n := by
          rw [take_append_of_le_length (by rw [length_pad]),
            take_of_length_le (by rw [length_pad])]
        have hdrop : (pad w n ++ (render pieces groups ++ s)).drop w =
            render pieces groups ++ s := by
          rw [drop_append, length_pad, Nat.sub_self, drop_zero,
            drop_of_length_le (by rw [length_pad]), nil_append]
        have hlength : w ≤ (pad w n ++ (render pieces groups ++ s)).length := by
          rw [length_append, length_pad]
          omega
        rw [render, append_assoc, exec, htake, hdrop, if_pos ⟨hlength, isDigit_pad⟩,
          ih h.2, readNumber_pad h.1]
        rfl

theorem exec_some {rest : JsString} (h : exec pieces s = some (groups, rest)) :
    Fits pieces groups ∧ s = render pieces groups ++ rest := by
  induction pieces generalizing s groups with
  | nil =>
    simp only [exec, Option.some.injEq, Prod.mk.injEq] at h
    obtain ⟨rfl, rfl⟩ := h
    exact ⟨rfl, rfl⟩
  | cons piece pieces ih =>
    cases piece with
    | unit u =>
      cases s with
      | nil => cases h
      | cons v s =>
        simp only [exec] at h
        split at h
        · next heq =>
          obtain ⟨hfits, rfl⟩ := ih h
          exact ⟨hfits, by rw [heq]; rfl⟩
        · cases h
    | number w =>
      simp only [exec] at h
      split at h
      · next hdigits =>
        obtain ⟨⟨groups', rest'⟩, hexec, heq⟩ := Option.map_eq_some_iff.mp h
        obtain ⟨rfl, rfl⟩ := Prod.mk.inj heq
        obtain ⟨hfits, hdrop⟩ := ih hexec
        obtain ⟨hpad, hlt⟩ := pad_readNumber hdigits.2
        rw [length_take_of_le hdigits.1] at hpad hlt
        refine ⟨⟨hlt, hfits⟩, ?_⟩
        rw [render, hpad, append_assoc, ← hdrop, take_append_drop]
      · cases h

theorem exec_append (pieces pieces' : List Piece) (s : JsString) :
    exec (pieces ++ pieces') s = (exec pieces s).bind fun (groups, rest) =>
      (exec pieces' rest).map fun (groups', rest') => (groups ++ groups', rest') := by
  induction pieces generalizing s with
  | nil => cases h : exec pieces' s <;> simp [exec, h]
  | cons piece pieces ih =>
    cases piece with
    | unit u =>
      cases s with
      | nil => rfl
      | cons v s =>
        simp only [cons_append, exec]
        split
        · exact ih s
        · rfl
    | number w =>
      simp only [cons_append, exec]
      split
      · rw [ih]
        cases exec pieces (s.drop w) with
        | none => rfl
        | some groups =>
          simp only [Option.bind_some, Option.map_some]
          cases exec pieces' groups.2 <;> rfl
      · rfl

/-! ## Fractions and zones -/

theorem afterFraction_text (f : Fraction) (h : ∀ u ∈ s.head?, isDigit u = false ∧ u ≠ 46) :
    afterFraction (f.text ++ s) = some s := by
  obtain ⟨digits, hvalid⟩ := f
  simp only [Bool.and_eq_true, decide_eq_true_eq] at hvalid
  unfold Fraction.text
  split
  · cases s with
    | nil => rfl
    | cons u s =>
      obtain ⟨-, hu⟩ := h u rfl
      simp only [nil_append, afterFraction]
      split
      · next heq => exact absurd (cons.inj heq).1 hu
      · rfl
  · next hne =>
    have htake : (digits ++ s).takeWhile isDigit = digits := by
      rw [takeWhile_append_of_pos (by simpa using hvalid.1)]
      cases s with
      | nil => simp
      | cons u s => simp [(h u rfl).1]
    have hdrop : (digits ++ s).dropWhile isDigit = s := by
      rw [dropWhile_append_of_pos (by simpa using hvalid.1)]
      cases s with
      | nil => rfl
      | cons u s => simp [(h u rfl).1]
    simp only [cons_append, afterFraction, htake, hdrop]
    exact if_pos ⟨length_pos_iff.mpr hne, hvalid.2⟩

theorem afterFraction_some {rest : JsString} (h : afterFraction s = some rest) :
    ∃ f : Fraction, s = f.text ++ rest := by
  unfold afterFraction at h
  split at h
  · next s =>
    dsimp only at h
    split at h
    · next hlength =>
      cases h
      refine ⟨⟨s.takeWhile isDigit, ?_⟩, ?_⟩
      · simp only [Bool.and_eq_true, decide_eq_true_eq]
        exact ⟨all_takeWhile, hlength.2⟩
      · rw [Fraction.text, if_neg (length_pos_iff.mp hlength.1), cons_append,
          takeWhile_append_dropWhile]
    · cases h
  · cases h
    exact ⟨⟨[], rfl⟩, rfl⟩

namespace Zone

def Fits : Zone → Prop
  | utc => True
  | offset _ hours minutes => hours < 100 ∧ minutes < 100

theorem Real.fits {z : Zone} (h : z.Real) : z.Fits := by
  cases z with
  | utc => trivial
  | offset west hours minutes =>
    obtain ⟨hm, hh⟩ := h
    exact ⟨by omega, by omega⟩

theorem isZone_text (z : Zone) : isZone z.text = true := by
  cases z with
  | utc => rfl
  | offset west hours minutes => cases west <;> simp [text, pad, isZone, isDigit_digit]

theorem pad_two {a b : UInt16} (ha : isDigit a = true) (hb : isDigit b = true) :
    ∃ n < 100, pad 2 n = [a, b] := by
  obtain ⟨hpad, hlt⟩ := pad_readNumber (s := [a, b]) (by simp [ha, hb])
  exact ⟨_, hlt, hpad⟩

theorem exists_of_isZone (h : isZone s = true) : ∃ z : Zone, z.Fits ∧ z.text = s := by
  unfold isZone at h
  split at h
  · next u =>
    obtain rfl : u = 90 := by simpa using h
    exact ⟨utc, trivial, rfl⟩
  · next sign a b colon c d =>
    simp only [Bool.and_eq_true, Bool.or_eq_true, beq_iff_eq] at h
    obtain ⟨⟨⟨⟨⟨hsign, ha⟩, hb⟩, rfl⟩, hc⟩, hd⟩ := h
    obtain ⟨hours, hh, hab⟩ := pad_two ha hb
    obtain ⟨minutes, hm, hcd⟩ := pad_two hc hd
    rcases hsign with rfl | rfl
    · exact ⟨offset false hours minutes, ⟨hh, hm⟩, by simp [text, hab, hcd]⟩
    · exact ⟨offset true hours minutes, ⟨hh, hm⟩, by simp [text, hab, hcd]⟩
  · cases h

theorem head_text (z : Zone) : ∀ u ∈ z.text.head?, isDigit u = false ∧ u ≠ 46 := by
  cases z with
  | utc => simp [text, isDigit]
  | offset west hours minutes => cases west <;> simp [text, isDigit]

end Zone

theorem assertRealOffset_ok {z : Zone} (hz : z.Fits) {path : String} :
    assertRealOffset z.text path = .ok () ↔ z.Real := by
  cases z with
  | utc => exact ⟨fun _ => trivial, fun _ => rfl⟩
  | offset west hours minutes =>
    obtain ⟨hh, hm⟩ := hz
    have hne : (Zone.offset west hours minutes).text ≠ [90] := by simp [Zone.text, pad]
    have hhours : readNumber (((Zone.offset west hours minutes).text.drop 1).take 2) = hours := by
      simpa [Zone.text, pad] using readNumber_pad (w := 2) hh
    have hminutes :
        readNumber (((Zone.offset west hours minutes).text.drop 4).take 2) = minutes := by
      simpa [Zone.text, pad] using readNumber_pad (w := 2) hm
    simp only [assertRealOffset, if_neg hne, hhours, hminutes, bind_ok, ensure_ok,
      MAX_OFFSET_MINUTES, Zone.Real]
    have habs : ∀ sign : Int, sign = 1 ∨ sign = -1 →
        |sign * ((hours : Int) * 60 + minutes)| = hours * 60 + minutes := by
      rintro sign (rfl | rfl)
      · rw [one_mul, abs_of_nonneg (by omega)]
      · rw [neg_one_mul, abs_neg, abs_of_nonneg (by omega)]
    rw [habs _ (by split <;> simp)]
    constructor
    · rintro ⟨-, h1, h2⟩
      omega
    · rintro ⟨h1, h2⟩
      exact ⟨(), by omega, by omega⟩

/-! ## Calendar parts -/

theorem dayNumber_add (y : Int) (m d : Nat) :
    Date.dayNumber ⟨y, m, 1⟩ + d - 1 = Date.dayNumber ⟨y, m, d⟩ := by
  simp only [Date.dayNumber]
  omega

variable {p : Parts}

theorem probe_eq_iff (hd : 1 ≤ p.day) : probe p = p.date ↔ 100 ≤ p.year ∧ p.date.Real := by
  unfold probe
  rw [dayNumber_add]
  by_cases hyear : p.year ≤ 99
  · rw [if_pos hyear]
    refine ⟨fun h => ?_, fun h => by omega⟩
    obtain ⟨hreal, hday⟩ := dateOf_spec (Date.dayNumber ⟨1900 + (p.year : Int), p.month, p.day⟩)
    have hlate := (not_congr (year_lt_iff hreal (1900 + p.year))).mpr (by
      rw [hday, Date.dayNumber]
      dsimp only
      omega)
    rw [h] at hlate
    simp only [Parts.date] at hlate
    omega
  · rw [if_neg hyear]
    constructor
    · intro h
      exact ⟨by omega, h ▸ (dateOf_spec _).1⟩
    · intro h
      exact dateOf_dayNumber h.2

theorem assertRealCalendarParts_ok {path : String} (hyear : p.year < 10000) :
    assertRealCalendarParts p path = .ok () ↔ p.Real ∧ 100 ≤ p.year := by
  simp only [assertRealCalendarParts, bind_ok, ensure_ok, Parts.Real]
  constructor
  · rintro ⟨-, hm, -, hd, -, hh, -, hmin, -, hs, hprobe⟩
    obtain ⟨h100, hreal⟩ := (probe_eq_iff (by omega)).mp hprobe
    exact ⟨⟨hyear, hreal, by omega, by omega, by omega⟩, h100⟩
  · rintro ⟨⟨-, hreal, hh, hmin, hs⟩, h100⟩
    obtain ⟨hm, hm12, hd, hdm⟩ := hreal
    have hlength : monthLength (isLeap p.date.year) p.date.month ≤ 31 := by
      have hall : ∀ leap : Bool, ∀ m < 13, monthLength leap m ≤ 31 := by decide
      exact hall _ _ (by omega)
    simp only [Parts.date] at hm hm12 hd hdm hlength
    exact ⟨(), by omega, (), by omega, (), by omega, (), by omega, (), by omega,
      (probe_eq_iff hd).mpr ⟨h100, hm, hm12, hd, hdm⟩⟩

/-! ## Forms -/

namespace Parts

/-- Four digits for the year, two for each other field. -/
def Fits (p : Parts) : Prop :=
  p.year < 10000 ∧ p.month < 100 ∧ p.day < 100 ∧ p.hour < 100 ∧ p.minute < 100 ∧ p.second < 100

theorem Real.fits (h : p.Real) : p.Fits := by
  obtain ⟨hy, ⟨hm, hm12, hd, hdm⟩, hh, hmin, hs⟩ := h
  have hlength : monthLength (isLeap p.date.year) p.date.month ≤ 31 := by
    have hall : ∀ leap : Bool, ∀ m < 13, monthLength leap m ≤ 31 := by decide
    exact hall _ _ (by omega)
  simp only [date] at hm hm12 hd hdm hlength
  exact ⟨hy, by omega, by omega, by omega, by omega, by omega⟩

end Parts

namespace Stated

def Fits : Stated → Prop
  | zoned p _ z => p.Fits ∧ z.Fits
  | f => f.parts.Fits

theorem Real.fits {f : Stated} (h : f.Real) : f.Fits := by
  obtain ⟨hparts, hzone⟩ := h
  cases f with
  | zoned p f z => exact ⟨hparts.fits, hzone.fits⟩
  | year | month | day | minute | second => exact hparts.fits

def precision : Stated → OccurredAtPrecision
  | year _ => .year
  | month _ _ => .month
  | day _ _ _ => .day
  | minute _ _ _ _ _ => .minute
  | second _ _ => .second
  | zoned _ _ _ => .second

def zone : Stated → OccurredAtZone
  | zoned _ _ _ => .explicit
  | _ => .unspecified

def stored : Stated → JsString
  | zoned p f z => toISOString (zoned p f z).start
  | f => f.text

def classified (f : Stated) : DateParser.ClassifiedOccurredAt :=
  ⟨f.precision, f.zone, toISOString f.start, f.stored⟩

theorem secondText_eq (p : Parts) (f : Fraction) : secondText p f =
    render SECOND_RE [p.year, p.month, p.day, p.hour, p.minute, p.second] ++ f.text := by
  simp [SECOND_RE, MINUTE_RE, DAY_RE, MONTH_RE, YEAR_RE, render, secondText, minuteText, dayText]

theorem minuteText_eq (y m d hh mm : Nat) :
    minuteText y m d hh mm = render MINUTE_RE [y, m, d, hh, mm] := by
  simp [MINUTE_RE, DAY_RE, MONTH_RE, YEAR_RE, render, minuteText, dayText]

theorem dayText_eq (y m d : Nat) : dayText y m d = render DAY_RE [y, m, d] := by
  simp [DAY_RE, MONTH_RE, YEAR_RE, render, dayText]

theorem monthText_eq (y m : Nat) : (month y m).text = render MONTH_RE [y, m] := by
  simp [MONTH_RE, YEAR_RE, render, text]

theorem yearText_eq (y : Nat) : (year y).text = render YEAR_RE [y] := by
  simp [YEAR_RE, render, text]

theorem fits_second (h : p.Fits) :
    ContextDesk.Fits SECOND_RE [p.year, p.month, p.day, p.hour, p.minute, p.second] := by
  obtain ⟨hy, hm, hd, hh, hmin, hs⟩ := h
  exact ⟨hy, hm, hd, hh, hmin, hs, rfl⟩

end Stated

/-! ## Which pattern matches -/

theorem exec_short (h : Fits pieces groups) (u : UInt16) (pieces' : List Piece) :
    exec (pieces ++ .unit u :: pieces') (render pieces groups) = none := by
  have hexec := exec_render h []
  rw [append_nil] at hexec
  rw [exec_append, hexec]
  rfl

theorem execAll_render (h : Fits pieces groups) :
    execAll pieces (render pieces groups) = some groups := by
  have hexec := exec_render h []
  rw [append_nil] at hexec
  rw [execAll, hexec]

theorem execAll_some (h : execAll pieces s = some groups) :
    Fits pieces groups ∧ s = render pieces groups := by
  unfold execAll at h
  split at h
  · next groups' hexec =>
    cases h
    obtain ⟨hfits, hs⟩ := exec_some hexec
    exact ⟨hfits, by rw [hs, append_nil]⟩
  · cases h

theorem execAll_none (h : exec pieces s = none) : execAll pieces s = none := by rw [execAll, h]

theorem execSecond_none (h : exec SECOND_RE s = none) : execSecond s = none := by
  rw [execSecond, h]

theorem execZoned_none (h : exec SECOND_RE s = none) : execZoned s = none := by
  rw [execZoned, h]

theorem execZoned_zoned (f : Fraction) {z : Zone} (hp : p.Fits) :
    execZoned (Stated.zoned p f z).text =
      some ([p.year, p.month, p.day, p.hour, p.minute, p.second], z.text) := by
  rw [Stated.text, Stated.secondText_eq, append_assoc, execZoned,
    exec_render (Stated.fits_second hp)]
  simp only [afterFraction_text f z.head_text, z.isZone_text, if_true]

theorem exec_second (f : Fraction) (hp : p.Fits) :
    exec SECOND_RE (Stated.secondText p f) =
      some ([p.year, p.month, p.day, p.hour, p.minute, p.second], f.text) ∧
    afterFraction f.text = some [] := by
  have hfraction := afterFraction_text f (s := []) (by simp)
  rw [append_nil] at hfraction
  exact ⟨by rw [Stated.secondText_eq, exec_render (Stated.fits_second hp)], hfraction⟩

theorem execZoned_some {zone : JsString} (h : execZoned s = some (groups, zone)) :
    ∃ p f z, p.Fits ∧ z.Fits ∧
      s = (Stated.zoned p f z).text ∧ z.text = zone := by
  unfold execZoned at h
  split at h
  · next groups' rest hexec =>
    split at h
    · next zone' hfraction =>
      split at h
      · next hzone =>
        cases h
        obtain ⟨hfits, rfl⟩ := exec_some hexec
        obtain ⟨f, rfl⟩ := afterFraction_some hfraction
        obtain ⟨z, hz, rfl⟩ := Zone.exists_of_isZone hzone
        match groups, hfits with
        | [y, m, d, hh, mm, ss], ⟨hy, hm, hd, hhh, hmm, hss, _⟩ =>
          refine ⟨⟨y, m, d, hh, mm, ss⟩, f, z, ⟨hy, hm, hd, hhh, hmm, hss⟩, hz, ?_, rfl⟩
          rw [Stated.text, Stated.secondText_eq, append_assoc]
      · cases h
    · cases h
  · cases h

/-! ## Classifying -/

namespace DateParser

theorem partsOf_second (p : Parts) :
    partsOf [p.year, p.month, p.day, p.hour, p.minute, p.second] .second = p := rfl

variable {f : Stated} {suffix : String}

variable (date : GregorianDate)

/-- What makes an instant of a text without a zone. -/
theorem parse_suffixed (hzone : f.zone = .unspecified) (hreal : f.Real)
    (h : (f.precision, suffix) ∈ partialForms.map Prod.snd) :
    date.parse (f.text ++ JsString.ofString suffix ++ JsString.ofString "Z") = some f.start := by
  have hcolon : JsString.ofString ":00" = 58 :: (pad 2 0 ++ []) := by decide
  have hday : JsString.ofString "T00:00:00" =
      84 :: (pad 2 0 ++ 58 :: (pad 2 0 ++ 58 :: pad 2 0)) := by decide
  have hmonth : JsString.ofString "-01T00:00:00" =
      45 :: (pad 2 1 ++ JsString.ofString "T00:00:00") := by decide
  have hyear : JsString.ofString "-01-01T00:00:00" =
      45 :: (pad 2 1 ++ JsString.ofString "-01T00:00:00") := by decide
  have hz : JsString.ofString "Z" = Zone.utc.text := by decide
  have hread : ∀ fr : Fraction, (Stated.zoned f.parts fr .utc).text =
      f.text ++ JsString.ofString suffix ++ JsString.ofString "Z" →
      (Stated.zoned f.parts fr .utc).start = f.start →
      date.parse (f.text ++ JsString.ofString suffix ++ JsString.ofString "Z") = some f.start :=
    fun fr htext hstart => by rw [← htext, ← hstart, date.reads f.parts fr .utc ⟨hreal.1, trivial⟩]
  simp only [partialForms, map_cons, map_nil, mem_cons, Prod.mk.injEq,
    not_mem_nil, or_false] at h
  cases f with
  | zoned p f z => cases hzone
  | second p f =>
    obtain rfl : suffix = "" := by simpa [Stated.precision] using h
    exact hread f (by rw [hz]; simp [Stated.text, Stated.parts]; decide)
      (by simp [Stated.start, Stated.parts, Zone.ms])
  | minute y m d hh mm =>
    obtain rfl : suffix = ":00" := by simpa [Stated.precision] using h
    exact hread ⟨[], rfl⟩ (by rw [hz, hcolon]; simp [Stated.text, Stated.secondText, Stated.parts,
      Fraction.text]) (by simp [Stated.start, Stated.parts, Zone.ms, Fraction.ms, readNumber])
  | day y m d =>
    obtain rfl : suffix = "T00:00:00" := by simpa [Stated.precision] using h
    exact hread ⟨[], rfl⟩ (by rw [hz, hday]; simp [Stated.text, Stated.secondText,
      Stated.minuteText, Stated.parts, Fraction.text])
      (by simp [Stated.start, Stated.parts, Zone.ms, Fraction.ms, readNumber])
  | month y m =>
    obtain rfl : suffix = "-01T00:00:00" := by simpa [Stated.precision] using h
    exact hread ⟨[], rfl⟩ (by rw [hz, hmonth, hday]; simp [Stated.text, Stated.secondText,
      Stated.minuteText, Stated.dayText, Stated.parts, Fraction.text])
      (by simp [Stated.start, Stated.parts, Zone.ms, Fraction.ms, readNumber])
  | year y =>
    obtain rfl : suffix = "-01-01T00:00:00" := by simpa [Stated.precision] using h
    exact hread ⟨[], rfl⟩ (by rw [hz, hyear, hmonth, hday]; simp [Stated.text, Stated.secondText,
      Stated.minuteText, Stated.dayText, Stated.parts, Fraction.text])
      (by simp [Stated.start, Stated.parts, Zone.ms, Fraction.ms, readNumber])

variable {path : String} {c : ClassifiedOccurredAt}

/-- The first pattern of the list that matches decides. -/
theorem classifyPartial_match {re : JsString → Option (List Nat)} (groups : List Nat)
    {forms : List ((JsString → Option (List Nat)) × OccurredAtPrecision × String)}
    (hzone : f.zone = .unspecified) (hfits : f.Fits) (hre : re f.text = some groups)
    (hparts : partsOf groups f.precision = f.parts)
    (h : (f.precision, suffix) ∈ partialForms.map Prod.snd) :
    date.classifyPartial f.text path ((re, f.precision, suffix) :: forms) = .ok c ↔
      f.Real ∧ 100 ≤ f.parts.year ∧ c = f.classified := by
  have hyear : f.parts.year < 10000 := by
    cases f with
    | zoned p f z => cases hzone
    | year | month | day | minute | second => exact hfits.1
  have hzoneReal : f.zoneReal := by
    cases f with
    | zoned p f z => cases hzone
    | year | month | day | minute | second => trivial
  have hclassified : f.classified = ⟨f.precision, .unspecified, toISOString f.start, f.text⟩ := by
    cases f with
    | zoned p f z => cases hzone
    | year | month | day | minute | second => rfl
  simp only [classifyPartial, hre, hparts, bind_ok, assertRealCalendarParts_ok hyear, require_ok,
    pure_ok, hclassified]
  constructor
  · rintro ⟨-, ⟨hreal, h100⟩, t, hparse, rfl⟩
    rw [parse_suffixed date hzone ⟨hreal, hzoneReal⟩ h] at hparse
    cases hparse
    exact ⟨⟨hreal, hzoneReal⟩, h100, rfl⟩
  · rintro ⟨hreal, h100, rfl⟩
    exact ⟨(), ⟨hreal.1, h100⟩, f.start, parse_suffixed date hzone hreal h, rfl⟩

variable {text : JsString}

theorem classifyPartial_skip {re : JsString → Option (List Nat)} {precision : OccurredAtPrecision}
    {forms : List ((JsString → Option (List Nat)) × OccurredAtPrecision × String)}
    (hre : re text = none) : date.classifyPartial text path ((re, precision, suffix) :: forms) =
      date.classifyPartial text path forms := by rw [classifyPartial, hre]

/-- How the text of a form is classified. -/
theorem classify_text (hfits : f.Fits) : date.classify f.text path = .ok c ↔
      f.Real ∧ 100 ≤ f.parts.year ∧ c = f.classified := by
  cases f with
  | zoned p f z =>
    obtain ⟨hp, hz⟩ := hfits
    rw [classify, execZoned_zoned f hp]
    simp only [partsOf_second, bind_ok, assertRealCalendarParts_ok hp.1, assertRealOffset_ok hz,
      require_ok, pure_ok]
    constructor
    · rintro ⟨-, ⟨hreal, h100⟩, -, hzone, t, hparse, rfl⟩
      rw [date.reads p f z ⟨hreal, hzone⟩] at hparse
      cases hparse
      exact ⟨⟨hreal, hzone⟩, h100, rfl⟩
    · rintro ⟨⟨hreal, hzone⟩, h100, rfl⟩
      exact ⟨(), ⟨hreal, h100⟩, (), hzone, _, date.reads p f z ⟨hreal, hzone⟩, rfl⟩
  | second p f =>
    have hp : p.Fits := hfits
    obtain ⟨hexec, hfraction⟩ := exec_second f hp
    have hzoned : execZoned (Stated.second p f).text = none := by
      rw [Stated.text, execZoned, hexec]
      simp only [hfraction]
      rfl
    have hre : execSecond (Stated.second p f).text =
        some [p.year, p.month, p.day, p.hour, p.minute, p.second] := by
      rw [Stated.text, execSecond, hexec]
      simp only [hfraction, if_true]
    rw [classify, hzoned]
    exact classifyPartial_match date _ rfl hfits hre rfl (by simp [partialForms, Stated.precision])
  | minute y m d hh mm =>
    have hgroups : Fits MINUTE_RE [y, m, d, hh, mm] := by
      obtain ⟨hy, hm, hd, hhh, hmm, -⟩ := hfits
      exact ⟨hy, hm, hd, hhh, hmm, rfl⟩
    have hsecond : exec SECOND_RE (render MINUTE_RE [y, m, d, hh, mm]) = none :=
      exec_short hgroups 58 [.number 2]
    have hre := execAll_render hgroups
    rw [← Stated.minuteText_eq] at hsecond hre
    rw [classify, Stated.text, execZoned_none hsecond, partialForms,
      classifyPartial_skip date (execSecond_none hsecond)]
    exact classifyPartial_match date [y, m, d, hh, mm] rfl hfits hre rfl
      (by simp [partialForms, Stated.precision])
  | day y m d =>
    have hgroups : Fits DAY_RE [y, m, d] := by
      obtain ⟨hy, hm, hd, -⟩ := hfits
      exact ⟨hy, hm, hd, rfl⟩
    have hshort := exec_short hgroups 84
    have hre := execAll_render hgroups
    rw [← Stated.dayText_eq] at hshort hre
    have hsecond : exec SECOND_RE (Stated.day y m d).text = none := hshort _
    have hminute : exec MINUTE_RE (Stated.day y m d).text = none := hshort _
    rw [classify, execZoned_none hsecond, partialForms,
      classifyPartial_skip date (execSecond_none hsecond),
      classifyPartial_skip date (execAll_none hminute)]
    exact classifyPartial_match date [y, m, d] rfl hfits hre rfl
      (by simp [partialForms, Stated.precision])
  | month y m =>
    have hgroups : Fits MONTH_RE [y, m] := by
      obtain ⟨hy, hm, -⟩ := hfits
      exact ⟨hy, hm, rfl⟩
    have hshort := exec_short hgroups 45
    have hre := execAll_render hgroups
    rw [← Stated.monthText_eq] at hshort hre
    have hsecond : exec SECOND_RE (Stated.month y m).text = none := hshort _
    have hminute : exec MINUTE_RE (Stated.month y m).text = none := hshort _
    have hday : exec DAY_RE (Stated.month y m).text = none := hshort _
    rw [classify, execZoned_none hsecond, partialForms,
      classifyPartial_skip date (execSecond_none hsecond),
      classifyPartial_skip date (execAll_none hminute),
      classifyPartial_skip date (execAll_none hday)]
    exact classifyPartial_match date [y, m] rfl hfits hre rfl
      (by simp [partialForms, Stated.precision])
  | year y =>
    have hgroups : Fits YEAR_RE [y] := ⟨hfits.1, rfl⟩
    have hshort := exec_short hgroups 45
    have hre := execAll_render hgroups
    rw [← Stated.yearText_eq] at hshort hre
    have hsecond : exec SECOND_RE (Stated.year y).text = none := hshort _
    have hminute : exec MINUTE_RE (Stated.year y).text = none := hshort _
    have hday : exec DAY_RE (Stated.year y).text = none := hshort _
    have hmonth : exec MONTH_RE (Stated.year y).text = none := hshort _
    rw [classify, execZoned_none hsecond, partialForms,
      classifyPartial_skip date (execSecond_none hsecond),
      classifyPartial_skip date (execAll_none hminute),
      classifyPartial_skip date (execAll_none hday),
      classifyPartial_skip date (execAll_none hmonth)]
    exact classifyPartial_match date [y] rfl hfits hre rfl
      (by simp [partialForms, Stated.precision])

/-- A text that is classified is of a form. -/
theorem exists_form {date : DateParser} (h : date.classify text path = .ok c) :
    ∃ f : Stated, f.Fits ∧ f.text = text := by
  have h00 : 0 < 100 := by decide
  have h01 : 1 < 100 := by decide
  unfold classify at h
  split at h
  · next groups zone hexec =>
    obtain ⟨p, f, z, hp, hz, rfl, -⟩ := execZoned_some hexec
    exact ⟨.zoned p f z, ⟨hp, hz⟩, rfl⟩
  · unfold partialForms at h
    simp only [classifyPartial] at h
    split at h
    · split at h
      · split at h
        · split at h
          · split at h
            · cases h
            · next groups hexec =>
              obtain ⟨hfits, rfl⟩ := execAll_some hexec
              match groups, hfits with
              | [y], ⟨hy, _⟩ =>
                exact ⟨.year y, ⟨hy, h01, h01, h00, h00, h00⟩,
                  Stated.yearText_eq y⟩
          · next groups hexec =>
            obtain ⟨hfits, rfl⟩ := execAll_some hexec
            match groups, hfits with
            | [y, m], ⟨hy, hm, _⟩ =>
              exact ⟨.month y m, ⟨hy, hm, h01, h00, h00, h00⟩,
                Stated.monthText_eq y m⟩
        · next groups hexec =>
          obtain ⟨hfits, rfl⟩ := execAll_some hexec
          match groups, hfits with
          | [y, m, d], ⟨hy, hm, hd, _⟩ =>
            exact ⟨.day y m d, ⟨hy, hm, hd, h00, h00, h00⟩,
              Stated.dayText_eq y m d⟩
      · next groups hexec =>
        obtain ⟨hfits, rfl⟩ := execAll_some hexec
        match groups, hfits with
        | [y, m, d, hh, mm], ⟨hy, hm, hd, hhh, hmm, _⟩ =>
          exact ⟨.minute y m d hh mm, ⟨hy, hm, hd, hhh, hmm, h00⟩,
            Stated.minuteText_eq y m d hh mm⟩
    · next groups hexec =>
      unfold execSecond at hexec
      split at hexec
      · next groups' rest hexec' =>
        split at hexec
        · next hrest =>
          cases hexec
          obtain ⟨hfits, rfl⟩ := exec_some hexec'
          obtain ⟨f, rfl⟩ := afterFraction_some hrest
          match groups, hfits with
          | [y, m, d, hh, mm, ss], ⟨hy, hm, hd, hhh, hmm, hss, _⟩ =>
            refine ⟨.second ⟨y, m, d, hh, mm, ss⟩ f, ⟨hy, hm, hd, hhh, hmm, hss⟩, ?_⟩
            rw [Stated.text, Stated.secondText_eq, append_nil]
        · cases hexec
      · cases hexec

/-- A text is accepted exactly when it is that of a real form from the year 100 on. -/
theorem classify_ok : date.classify text path = .ok c ↔
      ∃ f : Stated, f.Real ∧ 100 ≤ f.parts.year ∧ f.text = text ∧ c = f.classified := by
  constructor
  · intro h
    obtain ⟨f, hfits, rfl⟩ := exists_form h
    obtain ⟨hreal, h100, hc⟩ := (classify_text date hfits).mp h
    exact ⟨f, hreal, h100, rfl, hc⟩
  · rintro ⟨f, hreal, h100, rfl, hc⟩
    exact (classify_text date hreal.fits).mpr ⟨hreal, h100, hc⟩

end DateParser

end ContextDesk
