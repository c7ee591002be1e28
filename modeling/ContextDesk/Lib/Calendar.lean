import Mathlib.Algebra.GroupWithZero.Nat
import Mathlib.Data.Int.Init

/-!
# The proleptic Gregorian calendar

Days are numbered from 1970-01-01. A later date has a larger number (`dayNumber_lt`), and every
number is that of one date (`dayNumber_dateOf`).
-/

namespace ContextDesk.Lib.Calendar

def isLeap (y : Int) : Bool := y % 4 = 0 ∧ (y % 100 ≠ 0 ∨ y % 400 = 0)

def yearLength (y : Int) : Int := if isLeap y then 366 else 365

/-- The lengths of the months of a year. -/
def monthLengths (leap : Bool) : List Nat :=
  [31, if leap then 29 else 28, 31, 30, 31, 30, 31, 31, 30, 31, 30, 31]

def monthLength (leap : Bool) (m : Nat) : Nat := (monthLengths leap).getD (m - 1) 0

/-- The days of the year before the month. -/
def daysBefore (leap : Bool) (m : Nat) : Nat := ((monthLengths leap).take (m - 1)).sum

/-- The number of the first day of a year. -/
def dayFromYear (y : Int) : Int :=
  365 * (y - 1970) + (y - 1969) / 4 - (y - 1901) / 100 + (y - 1601) / 400

structure Date where
  year : Int
  month : Nat
  day : Nat
  deriving DecidableEq

namespace Date

/-- A date of the calendar. -/
def Real (d : Date) : Prop :=
  1 ≤ d.month ∧ d.month ≤ 12 ∧ 1 ≤ d.day ∧ d.day ≤ monthLength (isLeap d.year) d.month

instance (d : Date) : Decidable d.Real := by unfold Real; infer_instance

def dayNumber (d : Date) : Int :=
  dayFromYear d.year + daysBefore (isLeap d.year) d.month + d.day - 1

/-- The order of dates by year, then month, then day. -/
def Before (a b : Date) : Prop :=
  a.year < b.year ∨ a.year = b.year ∧ (a.month < b.month ∨ a.month = b.month ∧ a.day < b.day)

theorem before_or (a b : Date) : a.Before b ∨ a = b ∨ b.Before a := by
  obtain ⟨y, m, d⟩ := a
  obtain ⟨y', m', d'⟩ := b
  simp only [Before, mk.injEq]
  omega

end Date

/-! ## Years -/

theorem dayFromYear_succ (y : Int) : dayFromYear (y + 1) = dayFromYear y + yearLength y := by
  simp only [dayFromYear, yearLength, isLeap, decide_eq_true_eq]
  split
  · next h => omega
  · next h => omega

theorem dayFromYear_le {y z : Int} (h : y ≤ z) : dayFromYear y ≤ dayFromYear z := by
  induction z, h using Int.leInduction with
  | base => exact Int.le_refl _
  | succ z _ ih =>
    have hlength : 0 ≤ yearLength z := by unfold yearLength; split <;> decide
    rw [dayFromYear_succ]
    omega

/-- The year of a day: an estimate by the mean length of a year is one off at most. -/
def yearOfDay (n : Int) : Int :=
  let y := 1970 + n * 400 / 146097
  if n < dayFromYear y then y - 1 else if dayFromYear (y + 1) ≤ n then y + 1 else y

theorem yearOfDay_spec (n : Int) :
    dayFromYear (yearOfDay n) ≤ n ∧ n < dayFromYear (yearOfDay n + 1) := by
  unfold yearOfDay
  dsimp only
  split
  · next h =>
    rw [Int.sub_add_cancel]
    refine ⟨?_, h⟩
    unfold dayFromYear
    omega
  · next h =>
    split
    · next h' =>
      refine ⟨h', ?_⟩
      unfold dayFromYear
      omega
    · omega

/-! ## Months -/

theorem daysBefore_add (leap : Bool) {m m' : Nat} (hm : 1 ≤ m) (h : m < m') (hm' : m' ≤ 12) :
    daysBefore leap m + monthLength leap m ≤ daysBefore leap m' := by
  have hall : ∀ leap : Bool, ∀ m' < 13, ∀ m < m', 1 ≤ m →
      daysBefore leap m + monthLength leap m ≤ daysBefore leap m' := by decide
  exact hall leap m' (by omega) m h hm

theorem daysBefore_le (leap : Bool) {m : Nat} (hm : 1 ≤ m) (hm' : m ≤ 12) :
    daysBefore leap m + monthLength leap m ≤ (monthLengths leap).sum := by
  have hall : ∀ leap : Bool, ∀ m < 13, 1 ≤ m →
      daysBefore leap m + monthLength leap m ≤ (monthLengths leap).sum := by decide
  exact hall leap m (by omega) hm

theorem sum_monthLengths (y : Int) : ((monthLengths (isLeap y)).sum : Int) = yearLength y := by
  unfold yearLength
  cases isLeap y <;> rfl

/-- The month of a day of the year, counted from 0, and the days of the month before it. -/
def locate : List Nat → Nat → Nat × Nat
  | [], n => (0, n)
  | l :: ls, n => if n < l then (0, n) else ((locate ls (n - l)).1 + 1, (locate ls (n - l)).2)

theorem locate_spec (ls : List Nat) {n : Nat} (h : n < ls.sum) :
    (locate ls n).1 < ls.length ∧ (ls.take (locate ls n).1).sum + (locate ls n).2 = n ∧
      (locate ls n).2 < ls.getD (locate ls n).1 0 := by
  induction ls generalizing n with
  | nil => simp at h
  | cons l ls ih =>
    unfold locate
    split
    · next hn => simpa using hn
    · next hn =>
      obtain ⟨hlt, hsum, hday⟩ := ih (n := n - l) (by rw [List.sum_cons] at h; omega)
      refine ⟨by simpa using hlt, ?_, by simpa using hday⟩
      simp only [List.take_succ_cons, List.sum_cons]
      omega

/-! ## Dates and days -/

def dateOf (n : Int) : Date :=
  let y := yearOfDay n
  let place := locate (monthLengths (isLeap y)) (n - dayFromYear y).toNat
  ⟨y, place.1 + 1, place.2 + 1⟩

theorem dateOf_spec (n : Int) : (dateOf n).Real ∧ (dateOf n).dayNumber = n := by
  obtain ⟨hlow, hhigh⟩ := yearOfDay_spec n
  rw [dayFromYear_succ, ← sum_monthLengths] at hhigh
  obtain ⟨hmonth, hsum, hday⟩ := locate_spec (monthLengths (isLeap (yearOfDay n)))
    (n := (n - dayFromYear (yearOfDay n)).toNat) (by omega)
  have hlength : (monthLengths (isLeap (yearOfDay n))).length = 12 := rfl
  refine ⟨⟨by simp [dateOf], by simp only [dateOf]; omega, by simp [dateOf], hday⟩, ?_⟩
  simp only [Date.dayNumber, dateOf, daysBefore, Nat.add_sub_cancel]
  omega

theorem dayNumber_dateOf (n : Int) : (dateOf n).dayNumber = n := (dateOf_spec n).2

theorem dayNumber_lt {a b : Date} (ha : a.Real) (hb : b.Real) (h : a.Before b) :
    a.dayNumber < b.dayNumber := by
  obtain ⟨y, m, d⟩ := a
  obtain ⟨y', m', d'⟩ := b
  obtain ⟨hm, hm12, hd, hdm⟩ := ha
  obtain ⟨hm', hm12', hd', -⟩ := hb
  simp only [Date.Before, Date.dayNumber] at *
  obtain hy | ⟨rfl, hmonth | ⟨rfl, hday⟩⟩ := h
  · have hnext := dayFromYear_le (y := y + 1) (z := y') hy
    rw [dayFromYear_succ, ← sum_monthLengths] at hnext
    have hyear := daysBefore_le (isLeap y) hm hm12
    omega
  · have hnext := daysBefore_add (isLeap y) hm hmonth hm12'
    omega
  · omega

theorem dayNumber_injective {a b : Date} (ha : a.Real) (hb : b.Real)
    (h : a.dayNumber = b.dayNumber) : a = b := by
  obtain hlt | heq | hlt := a.before_or b
  · exact absurd h (Int.ne_of_lt (dayNumber_lt ha hb hlt))
  · exact heq
  · exact absurd h.symm (Int.ne_of_lt (dayNumber_lt hb ha hlt))

theorem dateOf_dayNumber {d : Date} (h : d.Real) : dateOf d.dayNumber = d :=
  dayNumber_injective (dateOf_spec _).1 h (dayNumber_dateOf _)

/-- A date is before a year exactly when its number is before the first day of the year. -/
theorem year_lt_iff {d : Date} (h : d.Real) (y : Int) :
    d.year < y ↔ d.dayNumber < dayFromYear y := by
  obtain ⟨hm, hm12, hd, hdm⟩ := h
  have hyear := daysBefore_le (isLeap d.year) hm hm12
  have hnext := dayFromYear_succ d.year
  rw [← sum_monthLengths] at hnext
  unfold Date.dayNumber
  constructor
  · intro hlt
    have := dayFromYear_le (y := d.year + 1) hlt
    omega
  · intro hlt
    refine Int.not_le.mp fun hle => ?_
    have := dayFromYear_le (y := y) (z := d.year) hle
    omega

end ContextDesk.Lib.Calendar
