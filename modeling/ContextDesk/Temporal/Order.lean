import ContextDesk.Temporal.Normalize

/-!
# The order of occurrences

The keys that come from an occurrence text are texts of instants in UTC, so their order is the order
of time. The key of an occurrence without a text is its `recordedAt` as it stands, which
`parseOccurrence` accepts with any offset and with up to three digits of a fraction: it is in order
with all those keys only where it is spelt like them (`occurrenceOrderKey_iff`).
-/

namespace ContextDesk

open Lib Lib.Calendar

/-! ## Texts outside of the years -/

variable {t : Int}

theorem head_toISOString_of_ge (h : YEAR_10000 ≤ t) : (toISOString t).head? = some 43 := by
  have hyear := (not_congr (year_lt_iff (dateOf_spec (t / 86400000)).1 10000)).mpr (by
    rw [dayNumber_dateOf]
    unfold YEAR_10000 at h
    omega)
  simp only [toISOString, yearText]
  rw [if_neg (by omega), if_neg (by omega)]
  rfl

theorem head_toISOString_of_lt (h : t < YEAR_0) : (toISOString t).head? = some 45 := by
  have hyear := (year_lt_iff (dateOf_spec (t / 86400000)).1 0).mpr (by
    rw [dayNumber_dateOf]
    unfold YEAR_0 at h
    omega)
  simp only [toISOString, yearText]
  rw [if_neg (by omega), if_pos hyear]
  rfl

theorem isDigit_head {s : JsString} (h : isZonedInstant s = true) :
    ∃ u, s.head? = some u ∧ isDigit u = true := by
  cases s with
  | nil => cases h
  | cons u s =>
    refine ⟨u, rfl, ?_⟩
    simp only [isZonedInstant, ZONED_INSTANT_HEAD, List.zipWith_cons_cons, List.all_cons, id,
      Bool.and_eq_true] at h
    exact h.1.2.1

theorem years_of_isZonedInstant (h : isZonedInstant (toISOString t) = true) :
    YEAR_0 ≤ t ∧ t < YEAR_10000 := by
  obtain ⟨u, hu, hdigit⟩ := isDigit_head h
  constructor
  · refine Int.not_lt.mp fun hlt => ?_
    rw [head_toISOString_of_lt hlt] at hu
    cases hu
    cases hdigit
  · refine Int.not_le.mp fun hle => ?_
    rw [head_toISOString_of_ge hle] at hu
    cases hu
    cases hdigit

theorem Stated.isDigit_head (f : Stated) : ∃ u, f.text.head? = some u ∧ isDigit u = true := by
  cases f <;> exact ⟨_, rfl, isDigit_digit _⟩

namespace DateParser

variable (date : DateParser)

/-! ## Instants and keys -/

/-- The instant of the text, or of the recording when there is no text. -/
def StandsFor (o : OccurrenceV1) (t : Int) : Prop :=
  match o.occurredAt with
  | none => date.parse o.recordedAt = some t
  | some text => ∃ f : Stated, f.Real ∧ f.text = text ∧ t = f.start

def Accepted (o : OccurrenceV1) : Prop := ∃ raw path, date.parseOccurrence raw path = .ok o

/-- An occurrence without a text has a `recordedAt` in its canonical spelling. -/
def CanonicalRecord (o : OccurrenceV1) : Prop :=
  o.occurredAt = none → date.canonicalInstant o.recordedAt = .ok o.recordedAt

/-- The keys are in the order of the instants. -/
def KeysInOrder (a b : OccurrenceV1) : Prop :=
  ∃ s t, date.StandsFor a s ∧ date.StandsFor b t ∧
    (date.occurrenceOrderKey a < date.occurrenceOrderKey b ↔ s < t) ∧
    (date.occurrenceOrderKey b < date.occurrenceOrderKey a ↔ t < s)

variable {date}

variable {o : OccurrenceV1} {t : Int}

theorem standsFor_unique {s : Int} (hs : date.StandsFor o s) (ht : date.StandsFor o t) : s = t := by
  unfold StandsFor at hs ht
  cases ho : o.occurredAt with
  | none =>
    rw [ho] at hs ht
    exact Option.some.inj (hs.symm.trans ht)
  | some text =>
    rw [ho] at hs ht
    obtain ⟨f, hf, htext, rfl⟩ := hs
    obtain ⟨g, hg, htext', rfl⟩ := ht
    rw [Stated.text_injective hf.fits hg.fits (htext.trans htext'.symm)]

theorem Accepted.spec (h : date.Accepted o) :
    date.isIsoInstant o.recordedAt = true ∧
      ∃ path, date.assertOccurrenceFields o.toNormalizedOccurredAt path = .ok () := by
  obtain ⟨raw, path, h⟩ := h
  simp only [parseOccurrence, bind_ok, ensure_ok, pure_ok] at h
  obtain ⟨-, -, -, hrecorded, ⟨⟩, hfields, rfl⟩ := h
  exact ⟨hrecorded, path, hfields⟩

theorem Accepted.recorded (h : date.Accepted o) : ∃ t, date.parse o.recordedAt = some t := by
  have hrecorded := h.spec.1
  simp only [isIsoInstant, Bool.and_eq_true] at hrecorded
  exact Option.isSome_iff_exists.mp hrecorded.2

/-- The key of an occurrence text is a text of its instant. -/
theorem key_of_text {date : GregorianDate} {text : JsString} (h : date.Accepted o)
    (hsome : o.occurredAt = some text) :
    ∃ u : UtcTime, date.StandsFor o u.instant ∧ date.occurrenceOrderKey o = u.toISOString := by
  obtain ⟨-, path, hfields⟩ := h.spec
  simp only [assertOccurrenceFields, hsome, bind_ok, ensure_ok] at hfields
  obtain ⟨c, hc, -, hstored, -⟩ := hfields
  obtain ⟨f, hreal, h100, rfl, rfl⟩ := (classify_ok date).mp hc
  have hhigh : f.start < YEAR_10000 := by
    cases f with
    | zoned p fr z =>
      refine Int.not_le.mp fun hle => ?_
      have hhead := head_toISOString_of_ge hle
      obtain ⟨v, hv, hdigit⟩ := (Stated.zoned p fr z).isDigit_head
      rw [← hstored] at hv
      obtain rfl := Option.some.inj (hhead.symm.trans hv)
      cases hdigit
    | second p fr =>
      have hday := (year_lt_iff hreal.1.2.1 10000).mp (by
        have := hreal.1.1
        simp only [Parts.date]
        omega)
      obtain ⟨-, -, hh, hmin, hs⟩ := hreal.1
      have hfraction := fr.ms_lt
      simp only [Stated.start, Stated.parts, Parts.start, YEAR_10000] at *
      omega
    | year | month | day | minute =>
      have hday := (year_lt_iff hreal.1.2.1 10000).mp (by
        have := hreal.1.1
        simp only [Parts.date]
        omega)
      obtain ⟨-, -, hh, hmin, hs⟩ := hreal.1
      simp only [Stated.start, Parts.start, YEAR_10000] at *
      omega
  obtain ⟨u, hu⟩ := UtcTime.exists_of_instant (Stated.start_of_year_le hreal h100) hhigh
  refine ⟨u, ?_, ?_⟩
  · unfold StandsFor
    rw [hsome]
    exact ⟨f, hreal, rfl, hu⟩
  · rw [occurrenceOrderKey, occurredAtSortKey, hsome]
    dsimp only
    rw [(classify_ok date).mpr ⟨f, hreal, h100, rfl, rfl⟩, ← u.toISOString_instant, hu]
    rfl

theorem key_of_record (h : o.occurredAt = none) : date.occurrenceOrderKey o = o.recordedAt := by
  rw [occurrenceOrderKey, occurredAtSortKey, h]

theorem standsFor_record (h : o.occurredAt = none) :
    date.StandsFor o t ↔ date.parse o.recordedAt = some t := by
  unfold StandsFor
  rw [h]

theorem canonicalInstant_ok {value canonical : JsString} :
    date.canonicalInstant value = .ok canonical ↔
      isZonedInstant value = true ∧ ∃ t, date.parse value = some t ∧ toISOString t = canonical := by
  simp only [canonicalInstant, bind_ok, ensure_ok, require_ok, pure_ok]
  simp only [isIsoInstant, Bool.and_eq_true]
  constructor
  · rintro ⟨-, ⟨hzoned, -⟩, t, ht, hcanonical⟩
    exact ⟨hzoned, t, ht, hcanonical⟩
  · rintro ⟨hzoned, t, ht, hcanonical⟩
    exact ⟨(), ⟨hzoned, by rw [ht]; rfl⟩, t, ht, hcanonical⟩

theorem key_of_canonical {date : GregorianDate} (h : date.Accepted o)
    (hcanonical : date.CanonicalRecord o) :
    ∃ u : UtcTime, date.StandsFor o u.instant ∧ date.occurrenceOrderKey o = u.toISOString := by
  cases ho : o.occurredAt with
  | some text => exact key_of_text h ho
  | none =>
    obtain ⟨hzoned, t, ht, heq⟩ := canonicalInstant_ok.mp (hcanonical ho)
    rw [← heq] at hzoned
    obtain ⟨hlow, hhigh⟩ := years_of_isZonedInstant hzoned
    obtain ⟨u, rfl⟩ := UtcTime.exists_of_instant hlow hhigh
    refine ⟨u, (standsFor_record ho).mpr ht, ?_⟩
    rw [key_of_record ho, ← heq, u.toISOString_instant]

variable {a : OccurrenceV1}

theorem keysInOrder_of_utc {b : OccurrenceV1} {u v : UtcTime} (ha : date.StandsFor a u.instant)
    (hka : date.occurrenceOrderKey a = u.toISOString) (hb : date.StandsFor b v.instant)
    (hkb : date.occurrenceOrderKey b = v.toISOString) : date.KeysInOrder a b := by
  refine ⟨u.instant, v.instant, ha, hb, ?_, ?_⟩
  · rw [hka, hkb, UtcTime.toISOString_lt]
  · rw [hka, hkb, UtcTime.toISOString_lt]

/-! ## Occurrences without a text -/

/-- What was recorded at an instant, with nothing said about when it happened. -/
def recordOf (u : UtcTime) : OccurrenceV1 := ⟨UNRECORDED_OCCURRENCE, u.toISOString⟩

def rawRecordOf (recordedAt : JsString) : JsValue :=
  .object [("occurredAt", .null), ("occurredAtPrecision", .string (JsString.ofString "unknown")),
    ("occurredAtZone", .string (JsString.ofString "unspecified")),
    ("recordedAt", .string recordedAt)]

theorem recordOf_accepted (u : UtcTime) : date.Accepted (recordOf u) := by
  refine ⟨rawRecordOf u.toISOString, "$", ?_⟩
  have hshape : checkObject "$" occurrenceShape (rawRecordOf u.toISOString) = .ok () := rfl
  have has : asOccurrence (rawRecordOf u.toISOString) = recordOf u := rfl
  simp only [parseOccurrence, bind_ok, ensure_ok, pure_ok]
  refine ⟨(), hshape, (), ?_, (), ?_, has⟩
  · rw [has]
    exact date.isIsoInstant_toISOString u
  · rw [has]
    rfl

theorem recordOf_canonical (date : GregorianDate) (u : UtcTime) :
    date.CanonicalRecord (recordOf u) := fun _ =>
  canonicalInstant_ok.mpr ⟨isZonedInstant_toISOString u, u.instant, date.parse_utc u,
    u.toISOString_instant⟩

theorem standsFor_recordOf (date : GregorianDate) (u : UtcTime) :
    date.StandsFor (recordOf u) u.instant := (standsFor_record rfl).mpr (date.parse_utc u)

/-- The first and the last instant of the years of the texts. -/
def firstTime : UtcTime := ⟨0, 1, 1, 0, 0, 0, 0, by decide⟩
def lastTime : UtcTime := ⟨9999, 12, 31, 23, 59, 59, 999, by decide⟩

theorem firstTime_le {u : UtcTime} : firstTime.instant ≤ u.instant := by
  have hyear := (not_congr (year_lt_iff u.date_real 0)).mp (by simp only [UtcTime.date]; omega)
  have hfirst : firstTime.instant = dayFromYear 0 * 86400000 := by decide
  rw [hfirst, UtcTime.instant]
  omega

theorem le_lastTime {u : UtcTime} : u.instant ≤ lastTime.instant := by
  have hms := u.msOfDay_lt
  have hyear := (year_lt_iff u.date_real 10000).mp (by
    have := u.valid.1
    simp only [UtcTime.date]
    omega)
  have hlast : lastTime.instant = dayFromYear 10000 * 86400000 - 1 := by decide
  rw [hlast, UtcTime.instant]
  omega

/-- The record is canonical, or stands beyond all texts of instants on the side of its instant. -/
def RecordInOrder (date : DateParser) (o : OccurrenceV1) : Prop :=
  date.CanonicalRecord o ∨ ∃ t, date.parse o.recordedAt = some t ∧
    (YEAR_10000 ≤ t ∧ lastTime.toISOString < o.recordedAt ∨
      t < YEAR_0 ∧ o.recordedAt < firstTime.toISOString)

/-- What the order of keys says of an occurrence without a text. -/
theorem recordInOrder_of_keys {date : GregorianDate} (ha : date.Accepted a)
    (h : ∀ b, date.Accepted b → date.CanonicalRecord b → date.KeysInOrder a b) :
    date.RecordInOrder a := by
  by_cases hnone : a.occurredAt = none
  · obtain ⟨t, ht⟩ := ha.recorded
    have hat := (standsFor_record hnone).mpr ht
    have hagainst : ∀ u : UtcTime, (a.recordedAt < u.toISOString ↔ t < u.instant) ∧
        (u.toISOString < a.recordedAt ↔ u.instant < t) := by
      intro u
      obtain ⟨s, s', hs, hs', horder⟩ :=
        h (recordOf u) (recordOf_accepted u) (recordOf_canonical date u)
      obtain rfl := standsFor_unique hs hat
      obtain rfl := standsFor_unique hs' (standsFor_recordOf date u)
      rw [key_of_record hnone, key_of_record rfl] at horder
      exact horder
    by_cases hlow : t < YEAR_0
    · refine .inr ⟨t, ht, .inr ⟨hlow, (hagainst firstTime).1.mpr ?_⟩⟩
      have hfirst : firstTime.instant = YEAR_0 := by decide
      omega
    · by_cases hhigh : t < YEAR_10000
      · obtain ⟨u, rfl⟩ := UtcTime.exists_of_instant (Int.not_lt.mp hlow) hhigh
        have hnot := (not_congr (hagainst u).1).mpr (Int.lt_irrefl _)
        have hnot' := (not_congr (hagainst u).2).mpr (Int.lt_irrefl _)
        refine .inl fun _ => canonicalInstant_ok.mpr ⟨?_, u.instant, ht, ?_⟩
        · have hrecorded := ha.spec.1
          simp only [isIsoInstant, Bool.and_eq_true] at hrecorded
          exact hrecorded.1
        · rw [u.toISOString_instant]
          exact List.le_antisymm hnot hnot'
      · refine .inr ⟨t, ht, .inl ⟨Int.not_lt.mp hhigh, (hagainst lastTime).2.mpr ?_⟩⟩
        have hlast : lastTime.instant = YEAR_10000 - 1 := by decide
        omega
  · exact .inl fun h => absurd h hnone

/-- The key of an occurrence is in order with every key that has one spelling exactly when it is in
order with the spelling itself. -/
theorem keysInOrder_iff {date : GregorianDate} (ha : date.Accepted a) :
    (∀ b, date.Accepted b → date.CanonicalRecord b → date.KeysInOrder a b) ↔
      date.RecordInOrder a := by
  refine ⟨recordInOrder_of_keys ha, fun h b hb hcanonical => ?_⟩
  obtain ⟨v, hv, hkv⟩ := key_of_canonical hb hcanonical
  by_cases hca : date.CanonicalRecord a
  · obtain ⟨u, hu, hku⟩ := key_of_canonical ha hca
    exact keysInOrder_of_utc hu hku hv hkv
  · have hnone : a.occurredAt = none := by
      by_contra hsome
      exact hca fun h => absurd h hsome
    obtain ⟨t, ht, hside⟩ := h.resolve_left hca
    refine ⟨t, v.instant, (standsFor_record hnone).mpr ht, hv, ?_⟩
    rw [key_of_record hnone, hkv]
    have hle : ¬ lastTime.toISOString < v.toISOString := by
      rw [UtcTime.toISOString_lt]
      exact Int.not_lt.mpr le_lastTime
    have hge : ¬ v.toISOString < firstTime.toISOString := by
      rw [UtcTime.toISOString_lt]
      exact Int.not_lt.mpr firstTime_le
    obtain ⟨hlate, hlast⟩ | ⟨hearly, hfirst⟩ := hside
    · have hlt : v.toISOString < a.recordedAt := List.lt_of_le_of_lt hle hlast
      have hinstant : v.instant < t := by
        have := @le_lastTime v
        have : lastTime.instant = YEAR_10000 - 1 := by decide
        omega
      exact ⟨⟨fun h => absurd h (List.lt_asymm hlt), fun h => by omega⟩, fun _ => hinstant,
        fun _ => hlt⟩
    · have hlt : a.recordedAt < v.toISOString :=
        Classical.not_not.mp fun h => hge (List.lt_of_le_of_lt h hfirst)
      have hinstant : t < v.instant := by
        have := @firstTime_le v
        have : firstTime.instant = YEAR_0 := by decide
        omega
      exact ⟨⟨fun _ => hinstant, fun _ => hlt⟩, fun h => absurd h (List.lt_asymm hlt),
        fun h => by omega⟩

theorem isBackfilled_mono {date : GregorianDate} {b : OccurrenceV1} (ha : date.Accepted a)
    (hb : date.Accepted b) {s recorded recorded' : Int} (hs : date.StandsFor a s)
    (ht : date.StandsFor b t) (hrecorded : date.parse a.recordedAt = some recorded)
    (hrecorded' : date.parse b.recordedAt = some recorded') (hst : t ≤ s)
    (hle : recorded ≤ recorded') (h : date.isBackfilled a = true) : date.isBackfilled b = true := by
  have hspec : ∀ {o : OccurrenceV1} {r r' : Int}, date.Accepted o → date.StandsFor o r →
      date.parse o.recordedAt = some r' →
      (date.isBackfilled o = true ↔ r' - r > BACKFILL_TOLERANCE_MS) := by
    intro o r r' ho hr hr'
    cases hsome : o.occurredAt with
    | none =>
      rw [standsFor_record hsome, hr'] at hr
      cases hr
      simp [isBackfilled, hsome, BACKFILL_TOLERANCE_MS]
    | some text =>
      obtain ⟨u, hu, hkey⟩ := key_of_text ho hsome
      obtain rfl := standsFor_unique hr hu
      rw [occurrenceOrderKey] at hkey
      simp [isBackfilled, hsome, hkey, date.parse_utc, hr']
  rw [hspec ha hs hrecorded] at h
  rw [hspec hb ht hrecorded']
  omega

/-- The key of an accepted occurrence is in order with all keys of the one spelling exactly when its
record is; so a list of such occurrences is sorted by time. Being a backfill is antitone in the
instant of the occurrence and monotone in that of the recording. -/
theorem occurrenceOrderKey_iff (date : GregorianDate) (raw : JsValue) (path : String)
    (a : OccurrenceV1) (ha : date.parseOccurrence raw path = .ok a) :
    ((∀ raw' path' b, date.parseOccurrence raw' path' = .ok b → date.CanonicalRecord b →
        date.KeysInOrder a b) ↔ date.RecordInOrder a) ∧
    (∀ l : List OccurrenceV1, (∀ o ∈ l, date.Accepted o ∧ date.CanonicalRecord o) →
      l.Pairwise (fun o o' => ¬ date.occurrenceOrderKey o' < date.occurrenceOrderKey o) →
      l.Pairwise (fun o o' => ∃ s t, date.StandsFor o s ∧ date.StandsFor o' t ∧ s ≤ t)) ∧
    ∀ raw' path' b, date.parseOccurrence raw' path' = .ok b →
      ∀ s t recorded recorded', date.StandsFor a s → date.StandsFor b t →
        date.parse a.recordedAt = some recorded → date.parse b.recordedAt = some recorded' →
        t ≤ s → recorded ≤ recorded' → date.isBackfilled a = true → date.isBackfilled b = true := by
  have haccepted : date.Accepted a := ⟨raw, path, ha⟩
  refine ⟨?_, fun l hl hsorted => ?_, fun raw' path' b hb s t recorded recorded' hs ht hr hr' =>
    isBackfilled_mono haccepted ⟨raw', path', hb⟩ hs ht hr hr'⟩
  · rw [← keysInOrder_iff haccepted]
    exact ⟨fun h b ⟨raw', path', hb⟩ => h raw' path' b hb, fun h raw' path' b hb =>
      h b ⟨raw', path', hb⟩⟩
  · refine hsorted.imp_of_mem fun {o o'} ho ho' hle => ?_
    obtain ⟨hoa, hoc⟩ := hl o ho
    obtain ⟨hoa', hoc'⟩ := hl o' ho'
    obtain ⟨s, t, hs, ht, -, hgreater⟩ := (keysInOrder_iff hoa).mpr (.inl hoc) o' hoa' hoc'
    exact ⟨s, t, hs, ht, Int.not_lt.mp fun hlt => hle (hgreater.mpr hlt)⟩

/-- Noon in Helsinki, with its offset, and an hour later in UTC. -/
def rawNoon : JsValue := rawRecordOf (JsString.ofString "2024-06-01T12:00:00+02:00")

def rawEleven : JsValue :=
  .object [("occurredAt", .string (JsString.ofString "2024-06-01T11:00:00.000Z")),
    ("occurredAtPrecision", .string (JsString.ofString "second")),
    ("occurredAtZone", .string (JsString.ofString "explicit")),
    ("recordedAt", .string (JsString.ofString "2024-06-01T11:00:30.000Z"))]

def noon : OccurrenceV1 :=
  ⟨UNRECORDED_OCCURRENCE, JsString.ofString "2024-06-01T12:00:00+02:00"⟩

def eleven : OccurrenceV1 :=
  ⟨⟨some (JsString.ofString "2024-06-01T11:00:00.000Z"), .second, .explicit⟩,
    JsString.ofString "2024-06-01T11:00:30.000Z"⟩

/-- The earlier occurrence has the larger key. -/
theorem noon_after_eleven :
    plainGregorian.parseOccurrence rawNoon "$" = .ok noon ∧
    plainGregorian.parseOccurrence rawEleven "$" = .ok eleven ∧
    plainGregorian.StandsFor noon 1717236000000 ∧ plainGregorian.StandsFor eleven 1717239600000 ∧
    plainGregorian.occurrenceOrderKey eleven < plainGregorian.occurrenceOrderKey noon := by
  have hnoon : plainGregorian.parse noon.recordedAt = some 1717236000000 := by decide +kernel
  refine ⟨rfl, rfl, (standsFor_record rfl).mpr hnoon,
    ⟨.zoned ⟨2024, 6, 1, 11, 0, 0⟩ ⟨[48, 48, 48], rfl⟩ .utc, by decide, rfl, rfl⟩, ?_⟩
  have hkey : plainGregorian.occurrenceOrderKey eleven =
      JsString.ofString "2024-06-01T11:00:00.000Z" := rfl
  rw [hkey]
  exact by decide +kernel

theorem occurrenceOrderKey_iff_noon : (∀ raw' path' b,
      plainGregorian.parseOccurrence raw' path' = .ok b → plainGregorian.CanonicalRecord b →
        plainGregorian.KeysInOrder noon b) ↔ plainGregorian.RecordInOrder noon :=
  (occurrenceOrderKey_iff plainGregorian rawNoon "$" noon rfl).1

end DateParser

end ContextDesk
