import ContextDesk.Lib.Calendar
import ContextDesk.Cases.Contracts

/-!
# Instants and their texts

An instant is a number of milliseconds since 1970-01-01T00:00:00Z, and `toISOString` is its text in
UTC. The texts of the instants of the years 0 to 9999 have one width, and their order by units is
the order of time (`toISOString_lt`). A `GregorianDate` is a `Date.parse` that reads the zoned texts
and what `toISOString` writes.
-/

namespace ContextDesk

open Lib Lib.Calendar

def pad : Nat → Nat → JsString
  | 0, _ => []
  | w + 1, n => pad w (n / 10) ++ [digit n]

def yearText (y : Int) : JsString :=
  if 0 ≤ y ∧ y ≤ 9999 then pad 4 y.toNat else (if y < 0 then 45 else 43) :: pad 6 y.natAbs

/-- `new Date(t).toISOString()`. -/
def toISOString (t : Int) : JsString :=
  let date := dateOf (t / 86400000)
  let ms := (t % 86400000).toNat
  yearText date.year ++ 45 :: (pad 2 date.month ++ 45 :: (pad 2 date.day ++ 84 ::
    (pad 2 (ms / 3600000) ++ 58 :: (pad 2 (ms / 60000 % 60) ++ 58 :: (pad 2 (ms / 1000 % 60) ++
      46 :: (pad 3 (ms % 1000) ++ [90]))))))

/-- The first instants of the years 0 and 10000. -/
def YEAR_0 : Int := dayFromYear 0 * 86400000
def YEAR_10000 : Int := dayFromYear 10000 * 86400000

namespace UtcTime

def date (u : UtcTime) : Date := ⟨u.year, u.month, u.day⟩

def msOfDay (u : UtcTime) : Nat := ((u.hour * 60 + u.minute) * 60 + u.second) * 1000 + u.millisecond

def instant (u : UtcTime) : Int := u.date.dayNumber * 86400000 + u.msOfDay

theorem isLeapYear_eq (y : Nat) : isLeapYear y = isLeap y := by
  simp only [isLeapYear, isLeap, decide_eq_decide]
  omega

variable (u : UtcTime)

theorem date_real : u.date.Real := by
  obtain ⟨-, hm, hm12, hd, hdm, -⟩ := u.valid
  refine ⟨hm, hm12, hd, ?_⟩
  rw [daysInMonth, isLeapYear_eq] at hdm
  exact hdm

theorem msOfDay_lt : u.msOfDay < 86400000 := by
  obtain ⟨-, -, -, -, -, hh, hmin, hs, hms⟩ := u.valid
  unfold msOfDay
  omega

theorem exists_of_instant {t : Int} (hlow : YEAR_0 ≤ t) (hhigh : t < YEAR_10000) :
    ∃ u : UtcTime, u.instant = t := by
  obtain ⟨hreal, hday⟩ := dateOf_spec (t / 86400000)
  have hy0 := (not_congr (year_lt_iff hreal 0)).mpr (by rw [hday]; unfold YEAR_0 at hlow; omega)
  have hy := (year_lt_iff hreal 10000).mpr (by rw [hday]; unfold YEAR_10000 at hhigh; omega)
  obtain ⟨y, hyear⟩ := Int.eq_ofNat_of_zero_le (Int.not_lt.mp hy0)
  obtain ⟨hm, hm12, hd, hdm⟩ := hreal
  have hmonth : monthLength (isLeap (dateOf (t / 86400000)).year) (dateOf (t / 86400000)).month =
      daysInMonth y (dateOf (t / 86400000)).month := by
    rw [daysInMonth, isLeapYear_eq, ← hyear]
    rfl
  refine ⟨⟨y, (dateOf (t / 86400000)).month, (dateOf (t / 86400000)).day,
    (t % 86400000).toNat / 3600000, (t % 86400000).toNat / 60000 % 60,
    (t % 86400000).toNat / 1000 % 60, (t % 86400000).toNat % 1000,
    by omega, hm, hm12, hd, hmonth ▸ hdm, by omega, by omega, by omega, by omega⟩, ?_⟩
  have hdate : Date.mk y (dateOf (t / 86400000)).month (dateOf (t / 86400000)).day =
      dateOf (t / 86400000) := by
    rw [← hyear]
  simp only [instant, date, msOfDay, hdate, hday]
  omega

theorem toISOString_eq : u.toISOString = pad 4 u.year ++ 45 :: (pad 2 u.month ++ 45 ::
    (pad 2 u.day ++ 84 :: (pad 2 u.hour ++ 58 :: (pad 2 u.minute ++ 58 :: (pad 2 u.second ++ 46 ::
      (pad 3 u.millisecond ++ [90])))))) := by
  simp only [UtcTime.toISOString, pad, Nat.div_div_eq_div_mul, Nat.reduceMul,
    List.nil_append, List.cons_append]

theorem toISOString_instant : ContextDesk.toISOString u.instant = u.toISOString := by
  have hms := u.msOfDay_lt
  have hday : u.instant / 86400000 = u.date.dayNumber := by unfold instant; omega
  have hclock : (u.instant % 86400000).toNat = u.msOfDay := by unfold instant; omega
  obtain ⟨hy, -, -, -, -, hh, hmin, hs, hms⟩ := u.valid
  have hhour : u.msOfDay / 3600000 = u.hour := by unfold msOfDay; omega
  have hminute : u.msOfDay / 60000 % 60 = u.minute := by unfold msOfDay; omega
  have hsecond : u.msOfDay / 1000 % 60 = u.second := by unfold msOfDay; omega
  have hmilli : u.msOfDay % 1000 = u.millisecond := by unfold msOfDay; omega
  have hyear : yearText (u.year : Int) = pad 4 u.year := by
    unfold yearText
    rw [if_pos (by omega)]
    rfl
  have hdate : dateOf u.date.dayNumber = ⟨u.year, u.month, u.day⟩ := dateOf_dayNumber u.date_real
  simp only [toISOString_eq, ContextDesk.toISOString, hday, hclock, hdate, hhour, hminute, hsecond,
    hmilli, hyear]

end UtcTime

/-! ## The order of texts -/

theorem length_pad (w n : Nat) : (pad w n).length = w := by
  induction w generalizing n with
  | zero => rfl
  | succ w ih => simp [pad, ih]

theorem append_lt_append {a b s t : JsString} (h : a.length = b.length) :
    a ++ s < b ++ t ↔ a < b ∨ a = b ∧ s < t := by
  induction a generalizing b with
  | nil =>
    obtain rfl := List.length_eq_zero_iff.mp h.symm
    simp
  | cons u a ih =>
    cases b with
    | nil => simp at h
    | cons v b =>
      simp only [List.cons_append, List.cons_lt_cons_iff, List.cons.injEq,
        ih (Nat.succ.inj h)]
      tauto

theorem toNat_digit (n : Nat) : (digit n).toNat = 48 + n % 10 := by
  have h : ∀ k < 10, (UInt16.ofNat (48 + k)).toNat = 48 + k := by decide
  exact h (n % 10) (Nat.mod_lt n (by decide))

variable {m n : Nat}

theorem digit_lt : digit m < digit n ↔ m % 10 < n % 10 := by
  rw [UInt16.lt_iff_toNat_lt, toNat_digit, toNat_digit]
  omega

theorem digit_inj : digit m = digit n ↔ m % 10 = n % 10 := by
  rw [← UInt16.toNat_inj, toNat_digit, toNat_digit]
  omega

variable {w : Nat}

theorem pad_inj (hm : m < 10 ^ w) (hn : n < 10 ^ w) : pad w m = pad w n ↔ m = n := by
  induction w generalizing m n with
  | zero => simp at hm hn; simp [pad, hm, hn]
  | succ w ih =>
    rw [Nat.pow_succ] at hm hn
    rw [pad, pad]
    constructor
    · intro h
      obtain ⟨hhigh, hlow⟩ := List.append_inj h (by simp [length_pad])
      have := (ih (by omega) (by omega)).mp hhigh
      have := digit_inj.mp (List.cons.inj hlow).1
      omega
    · rintro rfl
      rfl

theorem pad_lt (hm : m < 10 ^ w) (hn : n < 10 ^ w) : pad w m < pad w n ↔ m < n := by
  induction w generalizing m n with
  | zero => simp at hm hn; simp [pad, hm, hn]
  | succ w ih =>
    rw [Nat.pow_succ] at hm hn
    rw [pad, pad, append_lt_append (by simp [length_pad]), ih (by omega) (by omega),
      pad_inj (by omega) (by omega), List.cons_lt_cons_iff, digit_lt, digit_inj]
    simp only [List.not_lt_nil, and_false, or_false]
    omega

theorem pad_append_lt {u : UInt16} {s t : JsString} (hm : m < 10 ^ w) (hn : n < 10 ^ w) :
    pad w m ++ u :: s < pad w n ++ u :: t ↔ m < n ∨ m = n ∧ s < t := by
  rw [append_lt_append (by simp [length_pad]), pad_lt hm hn, pad_inj hm hn, List.cons_lt_cons_iff]
  simp

namespace UtcTime

theorem instant_lt_iff (u v : UtcTime) :
    u.instant < v.instant ↔ u.date.Before v.date ∨ u.date = v.date ∧ u.msOfDay < v.msOfDay := by
  have hu := u.msOfDay_lt
  have hv := v.msOfDay_lt
  unfold instant
  obtain hlt | heq | hlt := u.date.before_or v.date
  · have := dayNumber_lt u.date_real v.date_real hlt
    exact ⟨fun _ => .inl hlt, fun _ => by omega⟩
  · rw [heq]
    constructor
    · intro h
      exact .inr ⟨rfl, by omega⟩
    · rintro (h | ⟨-, h⟩)
      · exact absurd (dayNumber_lt v.date_real v.date_real h) (Int.lt_irrefl _)
      · omega
  · have hday := dayNumber_lt v.date_real u.date_real hlt
    constructor
    · intro h
      omega
    · rintro (h | ⟨h, -⟩)
      · have := dayNumber_lt u.date_real v.date_real h
        omega
      · rw [h] at hday
        omega

theorem msOfDay_lt_iff (u v : UtcTime) : u.msOfDay < v.msOfDay ↔ u.hour < v.hour ∨ u.hour = v.hour ∧
    (u.minute < v.minute ∨ u.minute = v.minute ∧ (u.second < v.second ∨
      u.second = v.second ∧ u.millisecond < v.millisecond)) := by
  obtain ⟨-, -, -, -, -, -, hm, hs, hms⟩ := u.valid
  obtain ⟨-, -, -, -, -, -, hm', hs', hms'⟩ := v.valid
  unfold msOfDay
  omega

theorem toISOString_lt (u v : UtcTime) :
    u.toISOString < v.toISOString ↔ u.instant < v.instant := by
  obtain ⟨hy, hm, hm12, hd, hdm, hh, hmin, hs, hms⟩ := u.valid
  obtain ⟨hy', hm', hm12', hd', hdm', hh', hmin', hs', hms'⟩ := v.valid
  have hday : ∀ w : UtcTime, w.day < 10 ^ 2 := by
    intro w
    have hall : ∀ leap : Bool, ∀ m < 13, monthLength leap m < 10 ^ 2 := by decide
    obtain ⟨-, hm12, -, hday⟩ := w.date_real
    exact Nat.lt_of_le_of_lt hday (hall _ _ (by omega))
  rw [toISOString_eq, toISOString_eq, pad_append_lt (by omega) (by omega),
    pad_append_lt (by omega) (by omega), pad_append_lt (hday u) (hday v),
    pad_append_lt (by omega) (by omega), pad_append_lt (by omega) (by omega),
    pad_append_lt (by omega) (by omega), pad_append_lt (by omega) (by omega), instant_lt_iff,
    msOfDay_lt_iff]
  simp only [Date.Before, date, Date.mk.injEq, Int.ofNat_lt, Int.ofNat_inj, List.not_lt_nil,
    and_false, or_false]
  tauto

end UtcTime

end ContextDesk

/-!
## Calendar texts

What a recorded text states: a year, a month, a day, a minute or a second of an unstated zone, or
an instant with its offset from UTC. A text states one thing (`Stated.text_injective`). A
`GregorianDate` is a `Date.parse` that reads the instants.
-/

namespace ContextDesk

open Lib Lib.Calendar

structure Parts where
  year : Nat
  month : Nat := 1
  day : Nat := 1
  hour : Nat := 0
  minute : Nat := 0
  second : Nat := 0
  deriving DecidableEq

namespace Parts

def date (p : Parts) : Date := ⟨p.year, p.month, p.day⟩

/-- A day of the calendar and a time of the day. -/
def Real (p : Parts) : Prop :=
  p.year < 10000 ∧ p.date.Real ∧ p.hour ≤ 23 ∧ p.minute ≤ 59 ∧ p.second ≤ 59

instance (p : Parts) : Decidable p.Real := by unfold Real; infer_instance

def start (p : Parts) : Int :=
  p.date.dayNumber * 86400000 + (((p.hour * 60 + p.minute) * 60 + p.second) * 1000 : Nat)

end Parts

def readNumber (s : JsString) : Nat := s.foldl (fun n u => 10 * n + (u.toNat - 48)) 0

/-- A point and up to three digits, or nothing. -/
structure Fraction where
  digits : JsString
  valid : (digits.all isDigit && digits.length ≤ 3) = true

namespace Fraction

def text (f : Fraction) : JsString := if f.digits = [] then [] else 46 :: f.digits

/-- The milliseconds of a fraction of a second. -/
def ms (f : Fraction) : Nat := readNumber f.digits * 10 ^ (3 - f.digits.length)

end Fraction

inductive Zone where
  | utc
  | offset (west : Bool) (hours minutes : Nat)
  deriving DecidableEq

namespace Zone

def text : Zone → JsString
  | utc => [90]
  | offset west hours minutes => (if west then 45 else 43) :: (pad 2 hours ++ 58 :: pad 2 minutes)

def Real : Zone → Prop
  | utc => True
  | offset _ hours minutes => minutes ≤ 59 ∧ hours * 60 + minutes ≤ 14 * 60

instance (z : Zone) : Decidable z.Real := by cases z <;> unfold Real <;> infer_instance

/-- How far the clock of the zone is ahead of UTC. -/
def ms : Zone → Int
  | utc => 0
  | offset west hours minutes => (if west then -1 else 1) * ((hours * 60 + minutes) * 60000)

end Zone

inductive Stated where
  | year (y : Nat)
  | month (y m : Nat)
  | day (y m d : Nat)
  | minute (y m d hh mm : Nat)
  | second (p : Parts) (f : Fraction)
  | zoned (p : Parts) (f : Fraction) (z : Zone)

/-- A stretch of a clock whose zone is not known, or an instant. -/
inductive Meaning where
  | period (start stop : Int)
  | instant (t : Int)

namespace Stated

def parts : Stated → Parts
  | year y => { year := y }
  | month y m => { year := y, month := m }
  | day y m d => { year := y, month := m, day := d }
  | minute y m d hh mm => { year := y, month := m, day := d, hour := hh, minute := mm }
  | second p _ => p
  | zoned p _ _ => p

def dayText (y m d : Nat) : JsString := pad 4 y ++ 45 :: (pad 2 m ++ 45 :: pad 2 d)

def minuteText (y m d hh mm : Nat) : JsString :=
  dayText y m d ++ 84 :: (pad 2 hh ++ 58 :: pad 2 mm)

def secondText (p : Parts) (f : Fraction) : JsString :=
  minuteText p.year p.month p.day p.hour p.minute ++ 58 :: (pad 2 p.second ++ f.text)

def text : Stated → JsString
  | year y => pad 4 y
  | month y m => pad 4 y ++ 45 :: pad 2 m
  | day y m d => dayText y m d
  | minute y m d hh mm => minuteText y m d hh mm
  | second p f => secondText p f
  | zoned p f z => secondText p f ++ z.text

def zoneReal : Stated → Prop
  | zoned _ _ z => z.Real
  | _ => True

/-- A real date, clock fields in range and a real offset. -/
def Real (f : Stated) : Prop := f.parts.Real ∧ f.zoneReal

/-- The first instant of what is stated; an unstated zone is read as UTC. -/
def start : Stated → Int
  | second p f => p.start + f.ms
  | zoned p f z => p.start + f.ms - z.ms
  | f => f.parts.start

def means : Stated → Meaning
  | year y => .period (dayFromYear y * 86400000) (dayFromYear (y + 1) * 86400000)
  | month y m => .period (month y m).start ((month y m).start + monthLength (isLeap y) m * 86400000)
  | day y m d => .period (day y m d).start ((day y m d).start + 86400000)
  | minute y m d hh mm =>
    .period (minute y m d hh mm).start ((minute y m d hh mm).start + 60000)
  | second p f => .period (second p f).start ((second p f).start + 10 ^ (3 - f.digits.length))
  | zoned p f z => .instant (zoned p f z).start

end Stated

/-- A `Date.parse` that computes Gregorian instants. -/
structure GregorianDate extends DateParser where
  reads : ∀ p f z, (Stated.zoned p f z).Real →
    parse (Stated.zoned p f z).text = some (Stated.zoned p f z).start

end ContextDesk
