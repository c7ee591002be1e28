import ContextDesk.LogAnalysis.Lanes

/-!
# Where the cursor places a lane

The place of a lane is to be its first event at or after the cursor, and its last one where there is
none (`firstAtOrAfter`). The search finds an event at the cursor, but which of several is not said,
so a lane is placed there exactly where all its events at the cursor are one, and the distance can be
computed (`scrubLinked_placed_iff`). The order of places holds whatever the search finds.
-/

namespace ContextDesk.LogAnalysis

open List

variable {search : BinarySearch} {events : List LaneEventRef} {cursorTs : Int}
  {e : LaneEventRef}

def Before (a b : LaneEventRef) : Prop := a.ts < b.ts ∨ a.ts = b.ts ∧ a.seq ≤ b.seq

def InOrder (events : List LaneEventRef) : Prop := events.Pairwise Before

theorem InOrder.byTime (h : InOrder events) : ByTime events :=
  h.imp fun hbefore => by
    rcases hbefore with hlt | ⟨heq, -⟩
    · exact le_of_lt hlt
    · exact le_of_eq heq

def firstAtOrAfter (events : List LaneEventRef) (cursorTs : Int) : Option LaneEventRef :=
  (events.find? fun e => cursorTs ≤ e.ts).or events.getLast?

/-! ## Searches -/

/-- A search that finds the first of the matches. -/
def firstMatch (events : List LaneEventRef) (ts : Int) : Except Nat Nat :=
  match events.findIdx? fun e => e.ts = ts with
  | some i => .ok i
  | none => .error (events.takeWhile fun e => e.ts < ts).length

variable {i : Nat}

theorem firstMatch_hit {ts : Int} (h : firstMatch events ts = .ok i) :
    ∃ e, events[i]? = some e ∧ e.ts = ts := by
  unfold firstMatch at h
  split at h
  · next j hj =>
    cases h
    obtain ⟨hlt, hts, -⟩ := findIdx?_eq_some_iff_getElem.mp hj
    exact ⟨_, getElem?_eq_getElem hlt, of_decide_eq_true hts⟩
  · cases h

theorem firstMatch_miss {ts : Int} (hsorted : ByTime events) (h : firstMatch events ts = .error i) :
    (∀ e ∈ events.take i, e.ts < ts) ∧ ∀ e ∈ events.drop i, ts < e.ts := by
  unfold firstMatch at h
  split at h
  · cases h
  · next hnone =>
    cases h
    have habsent : ∀ e ∈ events, e.ts ≠ ts := fun e he => by
      simpa using findIdx?_eq_none_iff.mp hnone e he
    obtain ⟨below, hbelow⟩ : ∃ below, below = fun e : LaneEventRef => decide (e.ts < ts) := ⟨_, rfl⟩
    rw [← hbelow]
    have hsplit := takeWhile_append_dropWhile (p := below) (l := events)
    have htake : (events.takeWhile below ++ events.dropWhile below).take
        (events.takeWhile below).length = events.takeWhile below := take_left' rfl
    have hdrop : (events.takeWhile below ++ events.dropWhile below).drop
        (events.takeWhile below).length = events.dropWhile below := drop_left' rfl
    rw [hsplit] at htake hdrop
    rw [htake, hdrop]
    refine ⟨fun e he => ?_, ?_⟩
    · have := mem_takeWhile_imp he
      rw [hbelow] at this
      exact of_decide_eq_true this
    -- the first of the rest is not below, and the others are not below it
    have hrest : (events.dropWhile below).Pairwise fun a b => a.ts ≤ b.ts :=
      hsorted.sublist (dropWhile_sublist _)
    have hmem : ∀ e ∈ events.dropWhile below, e ∈ events :=
      fun e he => (dropWhile_sublist _).subset he
    have hhead := head?_dropWhile_not below events
    cases hrest' : events.dropWhile below with
    | nil => exact fun e he => absurd he not_mem_nil
    | cons a rest =>
      rw [hrest'] at hrest hmem hhead
      have hfirst : ts < a.ts := by
        have hnot : ¬ a.ts < ts := by simpa [hbelow] using hhead
        have hne := habsent a (hmem a mem_cons_self)
        omega
      intro e he
      rcases mem_cons.mp he with rfl | he
      · exact hfirst
      · exact lt_of_lt_of_le hfirst ((pairwise_cons.mp hrest).1 e he)

/-- A search that finds the match at `i` on one lane. -/
def finding (events : List LaneEventRef) (i : Nat) (e : LaneEventRef)
    (h : events[i]? = some e) : BinarySearch where
  byTs events' ts := if events' = events ∧ ts = e.ts then .ok i else firstMatch events' ts
  hit _ hfound := by
    split at hfound
    · next hat =>
      cases hfound
      exact ⟨e, by rw [hat.1, h], hat.2.symm⟩
    · exact firstMatch_hit hfound
  miss hsorted hfound := by
    split at hfound
    · cases hfound
    · exact firstMatch_miss hsorted hfound

theorem finding_nearest (h : events[i]? = some e) :
    nearestAtOrAfter (finding events i e h) events e.ts = some e := by
  have hne : events ≠ [] := by
    rintro rfl
    cases h
  rw [nearestAtOrAfter, if_neg hne]
  have hfound : (finding events i e h).byTs events e.ts = .ok i := if_pos ⟨rfl, rfl⟩
  rw [hfound]
  exact h

/-! ## What is found -/

variable {a : LaneEventRef}

/-- The first event at or after the cursor comes before all others there. -/
theorem firstAtOrAfter_before (h : InOrder events)
    (he : (events.find? fun e => cursorTs ≤ e.ts) = some e) (ha : a ∈ events)
    (hat : cursorTs ≤ a.ts) : e = a ∨ Before e a := by
  obtain ⟨-, before, after, rfl, hnone⟩ := find?_eq_some_iff_append.mp he
  rcases mem_append.mp ha with hmem | hmem
  · have := hnone a hmem
    simp only [Bool.not_eq_true', decide_eq_false_iff_not] at this
    exact absurd hat this
  · rcases mem_cons.mp hmem with rfl | hmem
    · exact .inl rfl
    · have hpairs := (pairwise_append.mp h).2.1
      exact .inr ((pairwise_cons.mp hpairs).1 a hmem)

theorem nearest_of_miss (hsorted : ByTime events) (hne : events ≠ [])
    (h : search.byTs events cursorTs = .error i) :
    nearestAtOrAfter search events cursorTs = firstAtOrAfter events cursorTs := by
  obtain ⟨hbelow, habove⟩ := search.miss hsorted h
  rw [nearestAtOrAfter, if_neg hne, h, firstAtOrAfter]
  have hfind : (events.find? fun e => cursorTs ≤ e.ts) = (events.drop i).head? := by
    conv_lhs => rw [← take_append_drop i events]
    rw [find?_append, find?_eq_none.mpr, Option.none_or]
    · cases hdrop : events.drop i with
      | nil => rfl
      | cons a rest =>
        rw [hdrop] at habove
        rw [find?_cons_of_pos, head?_cons]
        exact decide_eq_true (le_of_lt (habove a mem_cons_self))
    · intro a ha
      have := hbelow a ha
      simpa using this
  rw [hfind, head?_drop]
  simp only
  split
  · next hlt => rw [getElem?_eq_getElem hlt, Option.some_or]
  · next hge => rw [getElem?_eq_none (Nat.le_of_not_lt hge), Option.none_or]

/-- An event at the cursor, or the place of the lane. -/
theorem nearest_cases (hsorted : ByTime events) (hne : events ≠ []) :
    (∃ e ∈ events, e.ts = cursorTs ∧ nearestAtOrAfter search events cursorTs = some e) ∨
      (∀ e ∈ events, e.ts ≠ cursorTs) ∧
        nearestAtOrAfter search events cursorTs = firstAtOrAfter events cursorTs := by
  cases h : search.byTs events cursorTs with
  | ok i =>
    obtain ⟨e, hi, hts⟩ := search.hit hsorted h
    refine .inl ⟨e, mem_of_getElem? hi, hts, ?_⟩
    rw [nearestAtOrAfter, if_neg hne, h]
    exact hi
  | error i =>
    obtain ⟨hbelow, habove⟩ := search.miss hsorted h
    refine .inr ⟨fun e he => ?_, nearest_of_miss hsorted hne h⟩
    rw [← take_append_drop i events] at he
    rcases mem_append.mp he with he | he
    · exact ne_of_lt (hbelow e he)
    · exact ne_of_gt (habove e he)

def OneAt (events : List LaneEventRef) (cursorTs : Int) : Prop :=
  ∀ a ∈ events, ∀ b ∈ events, a.ts = cursorTs → b.ts = cursorTs → a = b

/-- Where there are events at the cursor, the first one is the place. -/
theorem firstAtOrAfter_ts (h : InOrder events) (ha : a ∈ events) (hat : a.ts = cursorTs) :
    ∃ e ∈ events, e.ts = cursorTs ∧ firstAtOrAfter events cursorTs = some e := by
  cases hfind : events.find? fun e => cursorTs ≤ e.ts with
  | none =>
    have := find?_eq_none.mp hfind a ha
    simp only [decide_eq_true_eq] at this
    omega
  | some e =>
    have hlow : cursorTs ≤ e.ts := by simpa using find?_some hfind
    refine ⟨e, mem_of_find?_eq_some hfind, ?_, by rw [firstAtOrAfter, hfind]; rfl⟩
    rcases firstAtOrAfter_before h hfind ha (le_of_eq hat.symm) with rfl | hlt | ⟨heq, -⟩
    · exact hat
    · omega
    · omega

theorem nearest_of_oneAt (h : InOrder events) (hone : OneAt events cursorTs) :
    nearestAtOrAfter search events cursorTs = firstAtOrAfter events cursorTs := by
  by_cases hne : events = []
  · subst hne
    rfl
  · rcases nearest_cases h.byTime hne with ⟨a, ha, hat, hnearest⟩ | ⟨-, hnearest⟩
    · obtain ⟨e, he, hets, hfirst⟩ := firstAtOrAfter_ts h ha hat
      rw [hnearest, hfirst, hone a ha e he hat hets]
    · exact hnearest

theorem firstAtOrAfter_append {common : List LaneEventRef} (tail : List LaneEventRef)
    (h : ∃ e ∈ common, cursorTs ≤ e.ts) :
    firstAtOrAfter (common ++ tail) cursorTs = firstAtOrAfter common cursorTs := by
  cases hfind : common.find? fun e => cursorTs ≤ e.ts with
  | none =>
    obtain ⟨e, he, hat⟩ := h
    have := find?_eq_none.mp hfind e he
    simp only [decide_eq_true_eq] at this
    exact absurd hat this
  | some e =>
    rw [firstAtOrAfter, firstAtOrAfter, find?_append, hfind]
    rfl

/-! ## The order of the places -/

theorem before_getLast (h : InOrder events) {last : LaneEventRef}
    (hlast : events.getLast? = some last) (ha : a ∈ events) : a = last ∨ Before a last := by
  obtain ⟨init, rfl⟩ := getLast?_eq_some_iff.mp hlast
  rcases mem_append.mp ha with ha | ha
  · exact .inr ((pairwise_append.mp h).2.2 a ha last mem_cons_self)
  · exact .inl (mem_singleton.mp ha)

/-- What is found is at or after the cursor and before all later events, or it is the last event. -/
theorem nearest_some (h : InOrder events) (he : nearestAtOrAfter search events cursorTs = some e) :
    e ∈ events ∧ ((cursorTs ≤ e.ts ∧ ∀ a ∈ events, cursorTs < a.ts → e = a ∨ Before e a) ∨
      (events.getLast? = some e ∧ ∀ a ∈ events, a.ts < cursorTs)) := by
  have hne : events ≠ [] := by
    rintro rfl
    cases he
  rcases nearest_cases h.byTime hne with ⟨a, ha, hat, hnearest⟩ | ⟨-, hnearest⟩
  · rw [hnearest] at he
    cases he
    refine ⟨ha, .inl ⟨le_of_eq hat.symm, fun b _ hb => .inr (.inl ?_)⟩⟩
    omega
  · rw [hnearest, firstAtOrAfter] at he
    cases hfind : events.find? fun e => cursorTs ≤ e.ts with
    | none =>
      rw [hfind, Option.none_or] at he
      refine ⟨mem_of_getLast? he, .inr ⟨he, fun a ha => ?_⟩⟩
      simpa using find?_eq_none.mp hfind a ha
    | some first =>
      rw [hfind] at he
      cases he
      refine ⟨mem_of_find?_eq_some hfind, .inl ⟨by simpa using find?_some hfind,
        fun a ha hat => firstAtOrAfter_before h hfind ha (le_of_lt hat)⟩⟩

theorem nearest_mono (h : InOrder events) {cursorTs' : Int} (hle : cursorTs ≤ cursorTs')
    {e' : LaneEventRef} (he : nearestAtOrAfter search events cursorTs = some e)
    (he' : nearestAtOrAfter search events cursorTs' = some e') : e = e' ∨ Before e e' := by
  rcases eq_or_lt_of_le hle with rfl | hlt
  · rw [he] at he'
    exact .inl (Option.some.inj he')
  · obtain ⟨hmem, hplace⟩ := nearest_some h he
    obtain ⟨hmem', hplace'⟩ := nearest_some h he'
    rcases hplace' with ⟨hat', -⟩ | ⟨hlast, -⟩
    · rcases hplace with ⟨-, hlater⟩ | ⟨-, hbelow⟩
      · exact hlater e' hmem' (lt_of_lt_of_le hlt hat')
      · have := hbelow e' hmem'
        omega
    · exact before_getLast h hlast hmem

/-! ## Scrubbing -/

theorem deltaTs_eq_some {delta : Int} : deltaTs cursorTs e = some delta ↔
    |e.ts - cursorTs| ≤ i64Max ∧ |e.ts - cursorTs| = delta := by
  simp only [deltaTs, Option.bind_eq_some_iff, checkedI64_eq_some]
  constructor
  · rintro ⟨x, ⟨-, rfl⟩, hin, rfl⟩
    exact ⟨hin.2, rfl⟩
  · rintro ⟨hle, rfl⟩
    have hlow := neg_abs_le (e.ts - cursorTs)
    have hhigh := le_abs_self (e.ts - cursorTs)
    have habs := abs_nonneg (e.ts - cursorTs)
    have hmax : (i64Max : Int) = 2 ^ 63 - 1 := by decide
    refine ⟨_, ⟨⟨?_, ?_⟩, rfl⟩, ⟨?_, hle⟩, rfl⟩ <;> omega

/-- The place that the cursor is to give a lane. -/
def placed (cursorTs : Int) (lane : Lane) : PeerPosition :=
  match firstAtOrAfter lane.2 cursorTs with
  | none => ⟨lane.1, none, none, none⟩
  | some e => ⟨lane.1, some e.seq, some e.ts, some |e.ts - cursorTs|⟩

/-- One event at most is at the cursor, and the distance to the place is a value of `i64`. -/
def Placeable (lane : Lane) (cursorTs : Int) : Prop :=
  OneAt lane.2 cursorTs ∧ ∀ e ∈ firstAtOrAfter lane.2 cursorTs, |e.ts - cursorTs| ≤ i64Max

variable {lane : Lane}

theorem peerPosition_of_placeable (h : InOrder lane.2) (hplaceable : Placeable lane cursorTs) :
    peerPosition search cursorTs lane = some (placed cursorTs lane) := by
  rw [peerPosition, nearest_of_oneAt h hplaceable.1, placed]
  cases hfirst : firstAtOrAfter lane.2 cursorTs with
  | none => rfl
  | some e =>
    have hdelta := deltaTs_eq_some.mpr ⟨hplaceable.2 e hfirst, rfl⟩
    simp only [hdelta, Option.map_some]

/-- A position tells its event. -/
theorem event_of_position (h : peerPosition search cursorTs lane = some (placed cursorTs lane))
    (he : nearestAtOrAfter search lane.2 cursorTs = some e) :
    firstAtOrAfter lane.2 cursorTs = some e ∧ |e.ts - cursorTs| ≤ i64Max := by
  rw [peerPosition, he] at h
  obtain ⟨delta, hdelta, hposition⟩ := Option.map_eq_some_iff.mp h
  have hle := (deltaTs_eq_some.mp hdelta).1
  rw [placed] at hposition
  cases hfirst : firstAtOrAfter lane.2 cursorTs with
  | none =>
    rw [hfirst] at hposition
    cases hposition
  | some first =>
    rw [hfirst] at hposition
    simp only [PeerPosition.mk.injEq, Option.some.injEq, true_and] at hposition
    obtain ⟨hseq, hts, -⟩ := hposition
    obtain ⟨seq, ts⟩ := e
    obtain ⟨seq', ts'⟩ := first
    simp only at hseq hts
    exact ⟨by rw [hseq, hts], hle⟩

/-- If a lane has its place whatever is found at the cursor, there is one event there. -/
theorem placeable_of_positions (h : InOrder lane.2)
    (hpositions : ∀ search, peerPosition search cursorTs lane = some (placed cursorTs lane)) :
    Placeable lane cursorTs := by
  have hfound : ∀ a ∈ lane.2, a.ts = cursorTs → firstAtOrAfter lane.2 cursorTs = some a := by
    rintro a ha rfl
    obtain ⟨i, hi⟩ := mem_iff_getElem?.mp ha
    exact (event_of_position (hpositions (finding lane.2 i a hi)) (finding_nearest hi)).1
  refine ⟨fun a ha b hb hat hbt => ?_, fun e he => ?_⟩
  · have := hfound a ha hat
    rw [hfound b hb hbt] at this
    exact (Option.some.inj this).symm
  · have hne : lane.2 ≠ [] := by
      intro hnil
      rw [hnil] at he
      cases he
    obtain ⟨a, ha⟩ := exists_mem_of_ne_nil _ hne
    obtain ⟨i, hi⟩ := mem_iff_getElem?.mp ha
    rcases @nearest_cases (finding lane.2 i a hi) lane.2 cursorTs h.byTime hne with
      ⟨b, -, -, hnearest⟩ | ⟨-, hnearest⟩
    · obtain ⟨hfirst, hle⟩ := event_of_position (hpositions _) hnearest
      rw [Option.mem_def.mp he] at hfirst
      rw [Option.some.inj hfirst]
      exact hle
    · exact (event_of_position (hpositions _) (hnearest.trans he)).2

theorem mapM_eq_some {α β : Type} {f : α → Option β} {g : α → β} (l : List α) :
    l.mapM f = some (l.map g) ↔ ∀ a ∈ l, f a = some (g a) := by
  induction l with
  | nil => simp
  | cons a l ih =>
    simp only [mapM_cons, map_cons, Option.bind_eq_bind, Option.bind_eq_some_iff,
      Option.pure_def, Option.some.injEq, cons.injEq, forall_mem_cons]
    constructor
    · rintro ⟨b, hb, bs, hbs, rfl, rfl⟩
      exact ⟨hb, ih.mp hbs⟩
    · rintro ⟨ha, hl⟩
      exact ⟨g a, ha, l.map g, ih.mpr hl, rfl, rfl⟩

theorem scrubLinked_placed {lanes : List Lane} {quality : TimeQuality}
    (hquality : linkAllowed quality = .ok ()) :
    scrubLinked search cursorTs lanes quality =
        some ⟨cursorTs, lanes.map (placed cursorTs), true, none⟩ ↔
      ∀ lane ∈ lanes, peerPosition search cursorTs lane = some (placed cursorTs lane) := by
  rw [scrubLinked, hquality]
  simp only [Option.map_eq_some_iff, LinkScrubResult.mk.injEq, true_and, and_true]
  rw [← mapM_eq_some]
  exact ⟨fun ⟨positions, hpositions, heq⟩ => heq ▸ hpositions, fun h => ⟨_, h, rfl⟩⟩

/-- The lanes have their places, whatever the search finds, where each has one event at most at the
cursor and a distance that can be computed. -/
theorem scrubLinked_placed_iff {lanes : List Lane} {quality : TimeQuality}
    (hquality : linkAllowed quality = .ok ()) (hlanes : ∀ lane ∈ lanes, InOrder lane.2) :
    ((∀ search, scrubLinked search cursorTs lanes quality =
        some ⟨cursorTs, lanes.map (placed cursorTs), true, none⟩) ↔
      ∀ lane ∈ lanes, Placeable lane cursorTs) ∧
    (∀ lane ∈ lanes, ∀ search cursorTs', cursorTs ≤ cursorTs' →
      ∀ e ∈ nearestAtOrAfter search lane.2 cursorTs,
        ∀ e' ∈ nearestAtOrAfter search lane.2 cursorTs', e = e' ∨ Before e e') ∧
    ∀ search common tail tail', InOrder (common ++ tail) → InOrder (common ++ tail') →
      OneAt (common ++ tail) cursorTs → OneAt (common ++ tail') cursorTs →
      (∃ e ∈ common, cursorTs ≤ e.ts) →
        nearestAtOrAfter search (common ++ tail) cursorTs =
          nearestAtOrAfter search (common ++ tail') cursorTs := by
  refine ⟨?_, ?_, ?_⟩
  · simp only [scrubLinked_placed hquality]
    exact ⟨fun h lane hlane => placeable_of_positions (hlanes lane hlane)
        fun search => h search lane hlane,
      fun h search lane hlane => peerPosition_of_placeable (hlanes lane hlane) (h lane hlane)⟩
  · exact fun lane hlane search cursorTs' hle e he e' he' =>
      nearest_mono (hlanes lane hlane) hle he he'
  · intro search common tail tail' horder horder' hone hone' hreached
    rw [nearest_of_oneAt horder hone, nearest_of_oneAt horder' hone',
      firstAtOrAfter_append tail hreached, firstAtOrAfter_append tail' hreached]

instance (a b : LaneEventRef) : Decidable (Before a b) := inferInstanceAs (Decidable (_ ∨ _))

instance (events : List LaneEventRef) : Decidable (InOrder events) :=
  inferInstanceAs (Decidable (List.Pairwise _ _))

instance (events : List LaneEventRef) (cursorTs : Int) : Decidable (OneAt events cursorTs) :=
  inferInstanceAs (Decidable (∀ a ∈ events, ∀ b ∈ events, _ → _ → _))

/-- Two lanes with one event each at the cursor, or just after it. -/
def sampleLanes : List Lane :=
  [("api", [⟨1, 1000⟩, ⟨2, 1100⟩, ⟨3, 1200⟩]), ("worker", [⟨10, 1050⟩, ⟨11, 1150⟩])]

theorem sampleLanes_placed :
    scrubLinked (finding [⟨2, 1100⟩] 0 ⟨2, 1100⟩ rfl) 1100 sampleLanes .wall =
      some ⟨1100, sampleLanes.map (placed 1100), true, none⟩ := by
  refine (scrubLinked_placed_iff rfl (by decide)).1.mpr (fun lane hlane => ?_) _
  simp only [sampleLanes, mem_cons, not_mem_nil, or_false] at hlane
  rcases hlane with rfl | rfl
  · refine ⟨by decide, fun e he => ?_⟩
    obtain rfl : ⟨2, 1100⟩ = e := Option.some.inj he
    decide
  · refine ⟨by decide, fun e he => ?_⟩
    obtain rfl : ⟨11, 1150⟩ = e := Option.some.inj he
    decide

/-- Two events at one timestamp, of which the search finds the second. -/
theorem second_match_placed : ¬ ∀ (search : BinarySearch) (cursorTs : Int) (lanes : List Lane),
    (∀ lane ∈ lanes, InOrder lane.2) → scrubLinked search cursorTs lanes .wall =
      some ⟨cursorTs, lanes.map (placed cursorTs), true, none⟩ := by
  intro hplaced
  have hscrub := hplaced (finding [⟨1, 5⟩, ⟨2, 5⟩] 1 ⟨2, 5⟩ rfl) 5 [("a", [⟨1, 5⟩, ⟨2, 5⟩])]
    (by decide)
  revert hscrub
  decide

end ContextDesk.LogAnalysis
