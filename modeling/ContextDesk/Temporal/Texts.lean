import ContextDesk.Temporal.Reading

/-!
# The texts of the forms

The text of an instant in UTC is one of a form, and a text states one thing
(`Stated.text_injective`). `plainGregorian` is a parser of the instants that are real.
-/

namespace ContextDesk

open Lib Lib.Calendar

/-! ## The texts of instants -/

namespace UtcTime

/-- The text of an instant in UTC states the instant. -/
def stated (u : UtcTime) : Stated :=
  .zoned ⟨u.year, u.month, u.day, u.hour, u.minute, u.second⟩
    ⟨pad 3 u.millisecond, by simp [isDigit_pad, length_pad]⟩ .utc

theorem stated_text (u : UtcTime) : u.stated.text = u.toISOString := by
  have hne : pad 3 u.millisecond ≠ [] := by simp [pad]
  rw [toISOString_eq]
  simp [stated, Stated.text, Stated.secondText, Stated.minuteText, Stated.dayText, Fraction.text,
    hne, Zone.text]

theorem stated_real (u : UtcTime) : u.stated.Real := by
  obtain ⟨hy, -, -, -, -, hh, hmin, hs, hms⟩ := u.valid
  exact ⟨⟨hy, u.date_real, Nat.le_of_lt_succ hh, Nat.le_of_lt_succ hmin, Nat.le_of_lt_succ hs⟩,
    trivial⟩

theorem stated_start (u : UtcTime) : u.stated.start = u.instant := by
  obtain ⟨-, -, -, -, -, -, -, -, hms⟩ := u.valid
  have hread : readNumber (pad 3 u.millisecond) = u.millisecond := readNumber_pad hms
  simp only [stated, Stated.start, Fraction.ms, hread, length_pad, Zone.ms, instant, msOfDay,
    Parts.start, Parts.date, date]
  omega

end UtcTime

/-! ## A text states one thing -/

theorem render_injective {pieces : List Piece} {groups groups' : List Nat} {s s' : JsString}
    (h : Fits pieces groups) (h' : Fits pieces groups')
    (heq : render pieces groups ++ s = render pieces groups' ++ s') :
    groups = groups' ∧ s = s' := by
  have hexec := exec_render h s
  rw [heq, exec_render h' s'] at hexec
  simpa using hexec.symm

theorem Fraction.text_injective {f g : Fraction} (h : f.text = g.text) : f = g := by
  obtain ⟨digits, hf⟩ := f
  obtain ⟨digits', hg⟩ := g
  simp only [text] at h
  split at h <;> split at h
  · simp_all
  · cases h
  · cases h
  · simpa using h

variable {z : Zone}

theorem Zone.text_injective {z' : Zone} (h : z.Fits) (h' : z'.Fits) (heq : z.text = z'.text) :
    z = z' := by
  cases z with
  | utc =>
    cases z' with
    | utc => rfl
    | offset west hours minutes => simp [text, pad] at heq
  | offset west hours minutes =>
    cases z' with
    | utc => simp [text, pad] at heq
    | offset west' hours' minutes' =>
      simp only [text, List.cons.injEq] at heq
      obtain ⟨hhours, hrest⟩ := List.append_inj heq.2 (by simp [length_pad])
      obtain rfl := (pad_inj h.1 h'.1).mp hhours
      obtain rfl := (pad_inj h.2 h'.2).mp (List.cons.inj hrest).2
      cases west <;> cases west' <;> simp at heq ⊢

namespace Stated

theorem secondText_injective {p p' : Parts} {f f' : Fraction} {s s' : JsString} (h : p.Fits)
    (h' : p'.Fits) (heq : secondText p f ++ s = secondText p' f' ++ s') :
    p = p' ∧ f.text ++ s = f'.text ++ s' := by
  rw [secondText_eq, secondText_eq, List.append_assoc, List.append_assoc] at heq
  obtain ⟨hgroups, hrest⟩ := render_injective (fits_second h) (fits_second h') heq
  obtain ⟨y, m, d, hh, mm, ss⟩ := p
  obtain ⟨y', m', d', hh', mm', ss'⟩ := p'
  simp only [List.cons.injEq, and_true] at hgroups
  obtain ⟨rfl, rfl, rfl, rfl, rfl, rfl⟩ := hgroups
  exact ⟨rfl, hrest⟩

/-- The shorter forms have texts of their own lengths. -/
def shortLength : Stated → Option Nat
  | year _ => some 4
  | month _ _ => some 7
  | day _ _ _ => some 10
  | minute _ _ _ _ _ => some 16
  | second _ _ => none
  | zoned _ _ _ => none

theorem length_text (f : Stated) : f.shortLength = some f.text.length ∨
    f.shortLength = none ∧ 19 ≤ f.text.length := by
  cases f <;>
    simp [shortLength, text, secondText, minuteText, dayText, length_pad] <;> omega

theorem shortLength_le {f : Stated} {n : Nat} (h : f.shortLength = some n) : n ≤ 16 := by
  cases f <;> cases h <;> decide

theorem second_ne_zoned {p p' : Parts} {f f' : Fraction} (h : p.Fits) (h' : p'.Fits) :
    (second p f).text ≠ (zoned p' f' z).text := by
  intro heq
  have hzoned := execZoned_zoned f' (z := z) h'
  obtain ⟨hexec, hfraction⟩ := exec_second f h
  rw [← heq, text, execZoned, hexec] at hzoned
  simp only [hfraction] at hzoned
  cases hzoned

theorem text_injective {f g : Stated} (hf : f.Fits) (hg : g.Fits) (h : f.text = g.text) :
    f = g := by
  have hlength : f.shortLength = g.shortLength := by
    rcases length_text f with hl | ⟨hl, hl'⟩ <;> rcases length_text g with hm | ⟨hm, hm'⟩
    · rw [hl, hm, h]
    · have := shortLength_le hl
      rw [h] at this
      omega
    · have := shortLength_le hm
      rw [← h] at this
      omega
    · rw [hl, hm]
  cases f with
  | year y =>
    cases g <;> simp [shortLength] at hlength
    exact congrArg year ((pad_inj hf.1 hg.1).mp h)
  | month y m =>
    cases g <;> simp [shortLength] at hlength
    obtain ⟨hy, hm⟩ := List.append_inj h (by simp [length_pad])
    rw [(pad_inj hf.1 hg.1).mp hy, (pad_inj hf.2.1 hg.2.1).mp (List.cons.inj hm).2]
  | day y m d =>
    cases g <;> simp [shortLength] at hlength
    next y' m' d' =>
    simp only [text, dayText] at h
    obtain ⟨hy, hrest⟩ := List.append_inj h (by simp [length_pad])
    obtain ⟨hm, hd⟩ := List.append_inj (List.cons.inj hrest).2 (by simp [length_pad])
    rw [(pad_inj hf.1 hg.1).mp hy, (pad_inj hf.2.1 hg.2.1).mp hm,
      (pad_inj hf.2.2.1 hg.2.2.1).mp (List.cons.inj hd).2]
  | minute y m d hh mm =>
    cases g <;> simp [shortLength] at hlength
    next y' m' d' hh' mm' =>
    have hfits : ∀ {y m d hh mm}, (minute y m d hh mm).Fits →
        ContextDesk.Fits MINUTE_RE [y, m, d, hh, mm] :=
      fun h => ⟨h.1, h.2.1, h.2.2.1, h.2.2.2.1, h.2.2.2.2.1, rfl⟩
    simp only [text, minuteText_eq] at h
    have heq : render MINUTE_RE [y, m, d, hh, mm] ++ [] =
        render MINUTE_RE [y', m', d', hh', mm'] ++ [] := by rw [h]
    have hgroups := (render_injective (hfits hf) (hfits hg) heq).1
    simp only [List.cons.injEq, and_true] at hgroups
    obtain ⟨rfl, rfl, rfl, rfl, rfl⟩ := hgroups
    rfl
  | second p f =>
    cases g with
    | second p' f' =>
      have hp : p.Fits := hf
      have hp' : p'.Fits := hg
      have heq : secondText p f ++ [] = secondText p' f' ++ [] := by
        rw [List.append_nil, List.append_nil]
        exact h
      obtain ⟨rfl, hrest⟩ := secondText_injective hp hp' heq
      obtain rfl : f = f' := Fraction.text_injective (by simpa using hrest)
      rfl
    | zoned p' f' z => exact absurd h (second_ne_zoned hf hg.1)
    | year | month | day | minute => cases hlength
  | zoned p f z =>
    cases g with
    | zoned p' f' z' =>
      obtain ⟨rfl, hrest⟩ := secondText_injective hf.1 hg.1 h
      have hzone := afterFraction_text f z.head_text
      rw [hrest, afterFraction_text f' z'.head_text] at hzone
      obtain rfl := Zone.text_injective hf.2 hg.2 (Option.some.inj hzone).symm
      rw [Fraction.text_injective (List.append_cancel_right hrest)]
    | second p' f' => exact absurd h.symm (second_ne_zoned hg hf.1)
    | year | month | day | minute => cases hlength

end Stated

/-! ## A parser of instants -/

/-- The zone of a text that `isZone` accepts. -/
def zoneOf : JsString → Zone
  | [sign, a, b, _, c, d] => .offset (sign = 45) (readNumber [a, b]) (readNumber [c, d])
  | _ => .utc

/-- What an instant of the form `ZONED_INSTANT_RE` states. -/
def statedBy (s : JsString) : Option Stated :=
  match exec SECOND_RE s with
  | some ([y, m, d, hh, mm, ss], rest) =>
    let digits := if rest.head? = some 46 then (rest.drop 1).takeWhile isDigit else []
    let zone := if rest.head? = some 46 then (rest.drop 1).dropWhile isDigit else rest
    if h : (digits.all isDigit && digits.length ≤ 3) = true then
      some (.zoned ⟨y, m, d, hh, mm, ss⟩ ⟨digits, h⟩ (zoneOf zone))
    else none
  | _ => none

instance (f : Stated) : Decidable f.Real := by
  unfold Stated.Real
  cases f <;> unfold Stated.zoneReal <;> infer_instance

theorem zoneOf_text (h : z.Fits) : zoneOf z.text = z := by
  cases z with
  | utc => rfl
  | offset west hours minutes =>
    have hhours := readNumber_pad (w := 2) h.1
    have hminutes := readNumber_pad (w := 2) h.2
    simp only [pad, List.nil_append, List.cons_append] at hhours hminutes
    cases west <;> simp [Zone.text, zoneOf, pad, hhours, hminutes]

theorem statedBy_text {p : Parts} {f : Fraction} (h : (Stated.zoned p f z).Fits) :
    statedBy (Stated.zoned p f z).text = some (.zoned p f z) := by
  obtain ⟨hp, hz⟩ := h
  obtain ⟨digits, hvalid⟩ := f
  have hdigits := hvalid
  simp only [Bool.and_eq_true, decide_eq_true_eq] at hdigits
  have hzone := zoneOf_text hz
  have hhead := z.head_text
  rw [Stated.text, Stated.secondText_eq, List.append_assoc, statedBy,
    exec_render (Stated.fits_second hp)]
  generalize z.text = s at hzone hhead ⊢
  by_cases hnil : digits = []
  · subst hnil
    have hpoint : s.head? ≠ some 46 := fun h => (hhead 46 h).2 rfl
    simp [Fraction.text, hpoint, hzone]
  · have htake : (digits ++ s).takeWhile isDigit = digits := by
      rw [List.takeWhile_append_of_pos (by simpa using hdigits.1)]
      cases s with
      | nil => simp
      | cons u s => simp [(hhead u rfl).1]
    have hdrop : (digits ++ s).dropWhile isDigit = s := by
      rw [List.dropWhile_append_of_pos (by simpa using hdigits.1)]
      cases s with
      | nil => rfl
      | cons u s => simp [(hhead u rfl).1]
    simp [Fraction.text, hnil, htake, hdrop, hzone, hdigits]

/-- The instant of a text with a sign and six digits for the year. -/
def expandedStart : JsString → Option Int
  | sign :: s =>
    match exec (.number 6 :: SECOND_RE.drop 1 ++ [.unit 46, .number 3, .unit 90]) s with
    | some ([y, m, d, hh, mm, ss, ms], []) =>
      let date : Date := ⟨if sign = 45 then -y else y, m, d⟩
      if (sign = 43 ∨ sign = 45) ∧ date.Real ∧ hh ≤ 23 ∧ mm ≤ 59 ∧ ss ≤ 59 then
        some (date.dayNumber * 86400000 + (((hh * 60 + mm) * 60 + ss) * 1000 + ms : Nat))
      else none
    | _ => none
  | [] => none

/-- A parser of the real instants and of what `toISOString` writes. -/
def plainGregorian : GregorianDate where
  parse s :=
    match statedBy s with
    | some f => if f.Real then some f.start else none
    | none => expandedStart s
  parse_toISOString u := by
    have hreal := u.stated_real
    rw [← u.stated_text]
    unfold UtcTime.stated at hreal ⊢
    rw [statedBy_text hreal.fits]
    simp only [if_pos hreal]
    rfl
  reads p f z hreal := by
    rw [statedBy_text hreal.fits]
    simp only [if_pos hreal]

end ContextDesk
