import ContextDesk.Temporal.Texts

/-!
# Normalizing an occurrence

A text without a zone is kept as it is, a text with one is kept as its instant in UTC. What is kept
states what the text stated, and it is kept as it is when it is normalized again
(`normalizeOccurredAt_exact`). Blank text is an occurrence that nobody has written down.
-/

namespace ContextDesk

open Lib Lib.Calendar

theorem JsString.trim_of_ink {s : JsString} (h : ∀ u ∈ s, JsString.isWhiteSpace u = false) :
    JsString.trim s = s := by
  have hfront : s.dropWhile JsString.isWhiteSpace = s := by
    cases s with
    | nil => rfl
    | cons u s => rw [List.dropWhile_cons, h u (by simp)]; rfl
  rw [JsString.trim, hfront, List.rdropWhile_eq_self_iff]
  intro hne
  rw [h _ (List.getLast_mem hne)]
  decide

theorem UtcTime.trim_toISOString (u : UtcTime) : JsString.trim u.toISOString = u.toISOString := by
  refine JsString.trim_of_ink fun v hv => ?_
  obtain ⟨hlow, hhigh⟩ := u.ascii v hv
  rw [UInt16.le_iff_toNat_le] at hlow hhigh
  have hall : ∀ k < 0x5b, 0x2d ≤ k → JsString.isWhiteSpace (UInt16.ofNat k) = false := by decide
  have h := hall v.toNat (Nat.lt_succ_of_le hhigh) hlow
  rwa [UInt16.ofNat_toNat] at h

/-! ## Instants -/

namespace GregorianDate

variable (date : GregorianDate)

theorem parse_utc (u : UtcTime) : date.parse u.toISOString = some u.instant := by
  rw [← u.stated_text, ← u.stated_start]
  exact date.reads _ _ _ u.stated_real

theorem parse_toISOString_of_lt {t : Int} (hlow : YEAR_0 ≤ t) (hhigh : t < YEAR_10000) :
    date.parse (toISOString t) = some t := by
  obtain ⟨u, rfl⟩ := UtcTime.exists_of_instant hlow hhigh
  rw [u.toISOString_instant, date.parse_utc]

theorem parse_earliest : date.parse EARLIEST_OCCURRED_AT = some 0 := by
  have hepoch := date.parse_utc ⟨1970, 1, 1, 0, 0, 0, 0, by decide⟩
  exact hepoch

end GregorianDate

namespace Fraction

theorem ms_lt (f : Fraction) : f.ms < 1000 := by
  obtain ⟨digits, hvalid⟩ := f
  simp only [Bool.and_eq_true, decide_eq_true_eq] at hvalid
  obtain ⟨-, hlt⟩ := pad_readNumber hvalid.1
  have hpow : 10 ^ digits.length * 10 ^ (3 - digits.length) = 1000 := by
    rw [← Nat.pow_add, Nat.add_sub_cancel' hvalid.2]
  rw [ms, ← hpow]
  exact Nat.mul_lt_mul_of_pos_right hlt (Nat.pow_pos (by decide))

end Fraction

namespace Stated

variable {f : Stated}

/-- What is stated starts on its day, but for the offset. -/
theorem start_near (h : f.Real) :
    f.parts.date.dayNumber * 86400000 - 50400000 ≤ f.start ∧
      f.start < (f.parts.date.dayNumber + 1) * 86400000 + 50400000 := by
  obtain ⟨⟨-, -, hh, hmin, hs⟩, hzone⟩ := h
  have hparts : f.parts.date.dayNumber * 86400000 ≤ f.parts.start ∧
      f.parts.start + 1000 ≤ (f.parts.date.dayNumber + 1) * 86400000 := by
    unfold Parts.start
    omega
  cases f with
  | zoned p fr z =>
    have hfraction := fr.ms_lt
    have hoffset : -50400000 ≤ z.ms ∧ z.ms ≤ 50400000 := by
      cases z with
      | utc => decide
      | offset west hours minutes =>
        obtain ⟨hm, hhours⟩ := hzone
        cases west <;> simp only [Zone.ms, Bool.false_eq_true, if_true, if_false] <;> omega
    simp only [start, parts] at hparts ⊢
    omega
  | second p fr =>
    have hfraction := fr.ms_lt
    simp only [start, parts] at hparts ⊢
    omega
  | year | month | day | minute =>
    simp only [start]
    omega

theorem year_le_of_start (h : f.Real) (hstart : 0 ≤ f.start) : 100 ≤ f.parts.year := by
  have hnear := (start_near h).2
  have hyear := (not_congr (year_lt_iff h.1.2.1 100)).mpr (by
    have : dayFromYear 100 = -683003 := by decide
    omega)
  simp only [Parts.date] at hyear
  omega

theorem start_of_year_le (h : f.Real) (hyear : 100 ≤ f.parts.year) : YEAR_0 ≤ f.start := by
  have hnear := (start_near h).1
  have hday := (not_congr (year_lt_iff h.1.2.1 100)).mp (by simp only [Parts.date]; omega)
  have h100 : dayFromYear 100 = -683003 := by decide
  have h0 : YEAR_0 = -62167219200000 := by decide
  omega

theorem exists_kept (h : f.Real) (hlow : YEAR_0 ≤ f.start) (hhigh : f.start < YEAR_10000) :
    ∃ g : Stated, g.Real ∧ g.text = f.stored ∧
      g.stored = f.stored ∧ g.start = f.start ∧ g.precision = f.precision ∧ g.zone = f.zone ∧
      g.means = f.means ∧ (f.zone = .explicit → JsString.trim g.text = g.text) := by
  cases f with
  | zoned p fr z =>
    obtain ⟨u, hu⟩ := UtcTime.exists_of_instant hlow hhigh
    have htext : u.stated.text = (zoned p fr z).stored := by
      rw [u.stated_text, ← u.toISOString_instant, hu]
      rfl
    refine ⟨u.stated, u.stated_real, htext, ?_, by rw [u.stated_start, hu], rfl, rfl, ?_,
      fun _ => ?_⟩
    · show toISOString u.stated.start = toISOString (zoned p fr z).start
      rw [u.stated_start, hu]
    · show Meaning.instant u.stated.start = .instant (zoned p fr z).start
      rw [u.stated_start, hu]
    · rw [u.stated_text, u.trim_toISOString]
  | year | month | day | minute | second =>
    exact ⟨_, h, rfl, rfl, rfl, rfl, rfl, rfl, fun hzone => by cases hzone⟩

theorem text_ne_nil (f : Stated) : f.text ≠ [] := by
  cases f <;> simp [text, secondText, minuteText, dayText, pad]

end Stated

/-! ## What is accepted -/

namespace DateParser

/-- The derived fields of an input are missing or say what the form says. -/
def Agrees (input : OccurredAtInput) (f : Stated) : Prop :=
  agrees input.occurredAtPrecision f.precision.text = true ∧
    agrees input.occurredAtZone f.zone.text = true

/-- A real form between 1970 and five minutes from now. -/
def InRange (f : Stated) (now : Int) : Prop :=
  f.Real ∧ 0 ≤ f.start ∧ f.start ≤ now + FUTURE_SKEW_TOLERANCE_MS

/-- The text states nothing past the year 9999 of UTC. -/
def InYears (text : JsString) : Prop := ∀ f : Stated, f.Real → f.text = text → f.start < YEAR_10000

variable {input : OccurredAtInput} {r : NormalizedOccurredAt}

theorem normalizeRecorded_ok (date : GregorianDate) {rawAt : JsString}
    {options : NormalizeOptions} {clock now : Int}
    (hnow : date.nowOf options clock = .ok (some now)) (hyears : InYears (JsString.trim rawAt)) :
    date.normalizeRecorded input rawAt options clock = .ok r ↔
      ∃ f : Stated, f.text = JsString.trim rawAt ∧ Agrees input f ∧ InRange f now ∧
        r = ⟨some f.stored, f.precision, f.zone⟩ := by
  simp only [normalizeRecorded, bind_ok, ensure_ok, pure_ok, classify_ok, hnow, Except.ok.injEq,
    date.parse_earliest]
  constructor
  · rintro ⟨c, ⟨f, hreal, h100, htext, rfl⟩, -, hprecision, -, hzone, now?, rfl, -, hfuture, -,
      hpast, rfl⟩
    have hparse : date.parse f.classified.approximateInstant = some f.start :=
      date.parse_toISOString_of_lt (Stated.start_of_year_le hreal h100) (hyears f hreal htext)
    simp only [hparse, Option.mem_some_iff, exists_eq_left', Int.not_lt, gt_iff_lt] at hfuture hpast
    exact ⟨f, htext, ⟨hprecision, hzone⟩, ⟨hreal, hpast, hfuture⟩, rfl⟩
  · rintro ⟨f, htext, ⟨hprecision, hzone⟩, ⟨hreal, hpast, hfuture⟩, rfl⟩
    have h100 := Stated.year_le_of_start hreal hpast
    have hparse : date.parse f.classified.approximateInstant = some f.start :=
      date.parse_toISOString_of_lt (Stated.start_of_year_le hreal h100) (hyears f hreal htext)
    refine ⟨f.classified, ⟨f, hreal, h100, htext, rfl⟩, (), hprecision, (), hzone, _, rfl, (), ?_,
      (), ?_, rfl⟩
    · simpa [hparse] using hfuture
    · simpa [hparse] using hpast

theorem normalizeUnrecorded_ok {path : String} : normalizeUnrecorded input path = .ok r ↔
      agrees input.occurredAtPrecision "unknown" = true ∧ r = UNRECORDED_OCCURRENCE := by
  simp only [normalizeUnrecorded, bind_ok, ensure_ok, pure_ok]
  constructor
  · rintro ⟨_, h, rfl⟩
    exact ⟨h, rfl⟩
  · rintro ⟨h, rfl⟩
    exact ⟨(), h, rfl⟩

theorem normalizeOccurredAt_ok (date : GregorianDate) {text : JsString}
    {options : NormalizeOptions} {clock now : Int}
    (hinput : input.occurredAt = some (.string text))
    (hnow : date.nowOf options clock = .ok (some now)) (hyears : InYears (JsString.trim text)) :
    date.normalizeOccurredAt input options clock = .ok r ↔
      JsString.trim text = [] ∧ agrees input.occurredAtPrecision "unknown" = true ∧
        r = UNRECORDED_OCCURRENCE ∨
      ∃ f : Stated, f.text = JsString.trim text ∧ Agrees input f ∧ InRange f now ∧
        r = ⟨some f.stored, f.precision, f.zone⟩ := by
  rw [normalizeOccurredAt, hinput]
  dsimp only
  by_cases hblank : JsString.trim text = []
  · rw [if_pos hblank, normalizeUnrecorded_ok]
    constructor
    · exact fun h => .inl ⟨hblank, h⟩
    · rintro (⟨-, h⟩ | ⟨f, htext, -⟩)
      · exact h
      · exact absurd (htext.trans hblank) f.text_ne_nil
  · rw [if_neg hblank, normalizeRecorded_ok date hnow hyears]
    exact ⟨.inr, fun h => h.resolve_left fun h => hblank h.1⟩

/-! ## What is kept -/

/-- The occurrence as the input of another call. -/
def asInput (r : NormalizedOccurredAt) : OccurredAtInput :=
  ⟨some (r.occurredAt.elim .null .string),
    some (.string (JsString.ofString r.occurredAtPrecision.text)),
    some (.string (JsString.ofString r.occurredAtZone.text))⟩

/-- The occurrence states what the text states; a blank text states nothing. -/
def StatesThe (text : JsString) (r : NormalizedOccurredAt) : Prop :=
  match r.occurredAt with
  | none => text = []
  | some kept => ∃ f g : Stated, f.Real ∧ f.text = text ∧ g.Real ∧ g.text = kept ∧
      g.means = f.means ∧ r.occurredAtPrecision = f.precision ∧ r.occurredAtZone = f.zone

theorem agrees_self (s : String) : agrees (some (.string (JsString.ofString s))) s = true := by
  simp [agrees]

theorem assertOccurrenceFields_ok (date : GregorianDate) {g : Stated} {path : String}
    (hreal : g.Real) (h100 : 100 ≤ g.parts.year) (hstored : g.stored = g.text) :
    date.assertOccurrenceFields ⟨some g.text, g.precision, g.zone⟩ path = .ok () := by
  simp only [assertOccurrenceFields, bind_ok, ensure_ok]
  exact ⟨g.classified, (classify_ok date).mpr ⟨g, hreal, h100, rfl, rfl⟩, (), hstored, (), rfl, rfl⟩

/-- Blank text is kept as nothing, and the text of a form as what it states. What is kept passes
the check of stored occurrences, and a later call keeps it as it is. -/
theorem normalizeOccurredAt_exact (date : GregorianDate) (input : OccurredAtInput) (text : JsString)
    (hinput : input.occurredAt = some (.string text)) (options options' : NormalizeOptions)
    (clock clock' now now' : Int) (hnow : date.nowOf options clock = .ok (some now))
    (hnow' : date.nowOf options' clock' = .ok (some now')) (hle : now ≤ now')
    (hyears : InYears (JsString.trim text)) :
    (∀ r, date.normalizeOccurredAt input options clock = .ok r →
      (∀ path, date.assertOccurrenceFields r path = .ok ()) ∧ StatesThe (JsString.trim text) r ∧
      date.normalizeOccurredAt (asInput r) options' clock' = .ok r ∧
      (r.occurredAtZone = .unspecified → ∀ kept ∈ r.occurredAt, kept = JsString.trim text)) ∧
    ((∃ r, date.normalizeOccurredAt input options clock = .ok r) ↔
      JsString.trim text = [] ∧ agrees input.occurredAtPrecision "unknown" = true ∨
      ∃ f : Stated, f.text = JsString.trim text ∧ Agrees input f ∧ InRange f now) := by
  constructor
  · intro r h
    obtain ⟨hblank, -, rfl⟩ | ⟨f, htext, -, ⟨hreal, hpast, hfuture⟩, rfl⟩ :=
      (normalizeOccurredAt_ok date hinput hnow hyears).mp h
    · refine ⟨fun _ => rfl, hblank, ?_, fun _ kept hkept => by cases hkept⟩
      exact normalizeUnrecorded_ok.mpr ⟨agrees_self _, rfl⟩
    · have h100 := Stated.year_le_of_start hreal hpast
      have hlow := Stated.start_of_year_le hreal h100
      have hhigh := hyears f hreal htext
      obtain ⟨g, hg, hgtext, hgstored, hstart, hprecision, hzone, hmeans, htrim⟩ :=
        Stated.exists_kept hreal hlow hhigh
      have hgtrim : JsString.trim g.text = g.text := by
        cases hf : f.zone with
        | explicit => exact htrim hf
        | unspecified =>
          have : f.stored = f.text := by cases f <;> first | rfl | cases hf
          rw [hgtext, this, htext, JsString.trim_trim]
      have hsame : (⟨some f.stored, f.precision, f.zone⟩ : NormalizedOccurredAt) =
          ⟨some g.text, g.precision, g.zone⟩ := by rw [hgtext, hprecision, hzone]
      rw [hsame]
      have hgyears : InYears (JsString.trim g.text) := by
        intro f' hf' htext'
        rw [hgtrim] at htext'
        rw [Stated.text_injective hf'.fits hg.fits htext', hstart]
        exact hhigh
      refine ⟨fun path => assertOccurrenceFields_ok date hg
        (Stated.year_le_of_start hg (by rw [hstart]; exact hpast)) (by rw [hgstored, hgtext]),
        ⟨f, g, hreal, htext, hg, rfl, hmeans, hprecision, hzone⟩, ?_, ?_⟩
      · refine (normalizeOccurredAt_ok date rfl hnow' hgyears).mpr (.inr ⟨g, hgtrim.symm,
          ⟨agrees_self _, agrees_self _⟩, ⟨hg, by rw [hstart]; exact hpast, ?_⟩, ?_⟩)
        · rw [hstart]
          omega
        · rw [hgstored, hgtext]
      · rintro hunspecified kept ⟨⟩
        have hf : f.zone = .unspecified := hzone ▸ hunspecified
        have : f.stored = f.text := by cases f <;> first | rfl | cases hf
        rw [hgtext, this, htext]
  · simp only [normalizeOccurredAt_ok date hinput hnow hyears]
    constructor
    · rintro ⟨r, ⟨hblank, hagrees, -⟩ | ⟨f, htext, hagrees, hrange, -⟩⟩
      · exact .inl ⟨hblank, hagrees⟩
      · exact .inr ⟨f, htext, hagrees, hrange⟩
    · rintro (⟨hblank, hagrees⟩ | ⟨f, htext, hagrees, hrange⟩)
      · exact ⟨_, .inl ⟨hblank, hagrees, rfl⟩⟩
      · exact ⟨_, .inr ⟨f, htext, hagrees, hrange, rfl⟩⟩

def helsinkiText : JsString := JsString.ofString "2024-11-04T09:30:00+02:00"

def helsinkiOccurrence : NormalizedOccurredAt :=
  ⟨some (JsString.ofString "2024-11-04T07:30:00.000Z"), .second, .explicit⟩

theorem normalizeOccurredAt_exact_zoned :
    plainGregorian.normalizeOccurredAt { occurredAt := some (.string helsinkiText) } {}
      1800000000000 = .ok helsinkiOccurrence ∧
    plainGregorian.normalizeOccurredAt (asInput helsinkiOccurrence) {} 1900000000000 =
      .ok helsinkiOccurrence := by
  have hform : (Stated.zoned ⟨2024, 11, 4, 9, 30, 0⟩ ⟨[], rfl⟩ (.offset false 2 0)).text =
      JsString.trim helsinkiText := by decide +kernel
  have hreal : (Stated.zoned ⟨2024, 11, 4, 9, 30, 0⟩ ⟨[], rfl⟩ (.offset false 2 0)).Real := by
    decide
  have hyears : InYears (JsString.trim helsinkiText) := by
    intro f hf htext
    rw [Stated.text_injective hf.fits hreal.fits (htext.trans hform.symm)]
    decide
  have h : plainGregorian.normalizeOccurredAt { occurredAt := some (.string helsinkiText) } {}
      1800000000000 = .ok helsinkiOccurrence := by rfl
  exact ⟨h, ((normalizeOccurredAt_exact plainGregorian _ _ rfl {} {} 1800000000000 1900000000000 _ _
    rfl rfl (by decide) hyears).1 _ h).2.2.1⟩

def lateText : JsString := JsString.ofString "9999-12-31T23:59:59-14:00"

def lateOccurrence : NormalizedOccurredAt :=
  ⟨some (JsString.ofString "+010000-01-01T13:59:59.000Z"), .second, .explicit⟩

/-- Blank text is accepted and is of no form, and what is kept of an instant of the year 10000 does
not pass the check of stored occurrences. -/
theorem blank_and_late_accepted :
    plainGregorian.normalizeOccurredAt { occurredAt := some (.string [32]) } {} 0 =
      .ok UNRECORDED_OCCURRENCE ∧ (¬ ∃ f : Stated, f.text = JsString.trim [32]) ∧
    plainGregorian.normalizeOccurredAt { occurredAt := some (.string lateText) }
      { now := some lateText } 0 = .ok lateOccurrence ∧
    (plainGregorian.assertOccurrenceFields lateOccurrence "$").isOk = false := by
  refine ⟨rfl, ?_, rfl, rfl⟩
  rintro ⟨f, hf⟩
  exact f.text_ne_nil hf

end DateParser

end ContextDesk
