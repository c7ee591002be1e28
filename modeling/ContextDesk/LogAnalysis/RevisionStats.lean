import ContextDesk.LogAnalysis.EventRevision

/-!
# Staged updates and the statistics they publish

`Staged events staged` is what the checks before publication establish: distinct identities on
both sides, and for every staged update the one row it expects. Under it the published table is
`events` with exactly the named rows revised (`publishStaged_named`, `publishStaged_unnamed`),
and the statistics derived from the old boundary and the staged rows alone are those of a full
recount (`revisedStats_eq`).
-/

namespace ContextDesk.LogAnalysis

open Lib List

variable {r : EventRow} {u : EventTimestampUpdate}

theorem EventRow.sameEvent_iff : r.sameEvent u = true ↔ r.key = u.key := by
  simp [sameEvent, key, EventTimestampUpdate.key]

theorem EventRow.isExpected_iff :
    r.isExpected u = true ↔ r.key = u.key ∧ r.ts = u.expectedTs ∧
      r.activeTimestampBasis = some u.expectedActiveTimestampBasis := by
  simp [isExpected, sameEvent_iff]

theorem EventRow.isExact_iff :
    r.isExact u = true ↔ r.isExpected u = true ∧
      r.timestampProvenance = some u.expectedTimestampProvenance ∧
      r.unresolvedLocalTimestamp = u.expectedUnresolvedLocalTimestamp := by
  simp [isExact]

theorem EventRow.key_of_isExact (h : r.isExact u = true) : r.key = u.key :=
  (isExpected_iff.mp (isExact_iff.mp h).1).1

@[simp] theorem EventRow.revise_key (r : EventRow) (u : EventTimestampUpdate) :
    (r.revise u).key = r.key := rfl

/-! ## Staging -/

variable {updates : List EventTimestampUpdate}

variable {cancelled : CancelPoint → Bool}

theorem stageLoop_ok {before staged : List EventTimestampUpdate}
    (h : stageLoop cancelled before updates = .ok staged)
    (hd : Distinct EventTimestampUpdate.key before) :
    staged = before ++ updates ∧ Distinct EventTimestampUpdate.key staged ∧
      ∀ u ∈ updates, validateUpdate u = .ok () := by
  induction updates generalizing before with
  | nil =>
    obtain rfl := Except.ok.inj h
    exact ⟨by simp, hd, by simp⟩
  | cons update rest ih =>
    simp only [stageLoop, bind_ok, ensure_ok] at h
    obtain ⟨_, -, _, hv, _, hk, hrest⟩ := h
    have hd' : Distinct EventTimestampUpdate.key (before ++ [update]) := by
      simp only [Distinct, map_append, map_cons, map_nil]
      exact List.Nodup.append hd (nodup_singleton _) (by simpa using hk)
    obtain ⟨rfl, hdist, hall⟩ := ih hrest hd'
    refine ⟨by simp, hdist, fun u hu => ?_⟩
    rcases mem_cons.mp hu with rfl | hu
    · exact hv
    · exact hall u hu

theorem stageUpdates_ok {staged : List EventTimestampUpdate}
    (h : stageUpdates cancelled updates = .ok staged) :
    staged = updates ∧ Distinct EventTimestampUpdate.key staged ∧
      (∀ u ∈ staged, validateUpdate u = .ok ()) ∧ staged ≠ [] := by
  simp only [stageUpdates, bind_ok, ensure_ok, pure_ok] at h
  obtain ⟨s, hs, _, hne, _, -, rfl⟩ := h
  obtain ⟨rfl, hd, hv⟩ := stageLoop_ok hs nodup_nil
  exact ⟨rfl, hd, hv, fun e => hne (by rw [e]; rfl)⟩

/-- What is established of the staged updates before they are published. -/
structure Staged (events : List EventRow) (staged : List EventTimestampUpdate) : Prop where
  rows : Distinct EventRow.key events
  keys : Distinct EventTimestampUpdate.key staged
  exact : ∀ u ∈ staged, ∃ r ∈ events, r.isExact u = true
  valid : ∀ u ∈ staged, validateUpdate u = .ok ()
  nonempty : staged ≠ []

theorem filter_isExact_le {events : List EventRow} (hr : Distinct EventRow.key events)
    (u : EventTimestampUpdate) : (events.filter fun r => r.isExact u).length ≤ 1 := by
  cases hl : events.filter fun r => r.isExact u with
  | nil => simp
  | cons r l =>
    have hmem : r ∈ events.filter fun r => r.isExact u := by rw [hl]; exact mem_cons_self
    obtain ⟨hr1, hr2⟩ := mem_filter.mp hmem
    rw [← hl, hr.filter_eq_singleton hr1 hr2 fun s _ hs =>
      (EventRow.key_of_isExact hs).trans (EventRow.key_of_isExact hr2).symm]
    simp

theorem Staged.of_checks {events : List EventRow} {staged : List EventTimestampUpdate} {u : Unit}
    (hr : Distinct EventRow.key events) (hs : stageUpdates cancelled updates = .ok staged)
    (hv : validateStagedUpdates events staged = .ok u) : Staged events staged := by
  obtain ⟨-, hk, hval, hne⟩ := stageUpdates_ok hs
  simp only [validateStagedUpdates, bind_ok, ensure_ok] at hv
  obtain ⟨_, hlen, -⟩ := hv
  exact ⟨hr, hk, join_total (fun u _ => filter_isExact_le hr u) hlen, hval, hne⟩

section

variable {events : List EventRow} {staged : List EventTimestampUpdate}

theorem stageLoop_accepted (before : List EventTimestampUpdate)
    (hk : Distinct EventTimestampUpdate.key (before ++ staged))
    (hv : ∀ u ∈ staged, validateUpdate u = .ok ()) :
    stageLoop RevisionEnv.quiet.cancelled before staged = .ok (before ++ staged) := by
  induction staged generalizing before with
  | nil => simp [stageLoop]
  | cons u rest ih =>
    have hnew : u.key ∉ before.map EventTimestampUpdate.key := by
      intro hmem
      rw [Distinct, map_append, map_cons] at hk
      exact (nodup_append.mp hk).2.2 _ hmem _ mem_cons_self rfl
    have ih := ih (before ++ [u]) (by simpa using hk)
      fun v hv' => hv v (mem_cons_of_mem _ hv')
    simp only [stageLoop, bind_ok, ensure_ok]
    refine ⟨(), by simp [RevisionEnv.quiet], (), hv u mem_cons_self, (), hnew, ?_⟩
    simpa using ih

theorem Staged.stageUpdates (h : Staged events staged) :
    stageUpdates RevisionEnv.quiet.cancelled staged = .ok staged := by
  simp only [LogAnalysis.stageUpdates, bind_ok, ensure_ok, pure_ok]
  refine ⟨staged, stageLoop_accepted [] h.keys h.valid, (), ?_, (), ?_, rfl⟩
  · exact fun h0 => h.nonempty (length_eq_zero_iff.mp h0)
  · simp [RevisionEnv.quiet]

theorem length_le_utf8ByteSize (s : String) : s.length ≤ s.utf8ByteSize := by
  induction s using String.push_induction with
  | empty => simp
  | push s c ih =>
    have := c.utf8Size_pos
    rw [String.length_push, String.utf8ByteSize_push]
    omega

variable {u : EventTimestampUpdate}

theorem EventTimestampUpdate.consistentProvenance_of_valid (h : validateUpdate u = .ok ()) :
    u.consistentProvenance = true := by
  simp only [validateUpdate, bind_ok, ensure_ok] at h
  obtain ⟨_, -, _, -, _, -, h⟩ := h
  unfold supportedTransition at h
  cases hp : u.expectedTimestampProvenance with
  | explicitWallClock =>
    rw [hp] at h
    simp only [Bool.and_eq_true, Option.isNone_iff_eq_none, beq_iff_eq] at h
    simp [consistentProvenance, hp, h]
  | unresolvedLocal =>
    rw [hp] at h
    simp only [Bool.and_eq_true, Option.any_eq_true] at h
    obtain ⟨⟨⟨⟨value, hv, hbounded⟩, hbasis⟩, -⟩, -⟩ := h
    simp only [boundedLocalText, decide_eq_true_eq] at hbounded
    have hlen := length_le_utf8ByteSize value
    have hmax : value.length ≤ 256 := hlen.trans hbounded.2.1
    cases he : u.expectedActiveTimestampBasis <;> cases hr : u.revisedActiveTimestampBasis <;>
      simp_all [consistentProvenance]
  | orderOnly => simp [hp] at h
  | legacyUnknown => simp [hp] at h

theorem Staged.validateStagedUpdates (h : Staged events staged) :
    validateStagedUpdates events staged = .ok () := by
  simp only [LogAnalysis.validateStagedUpdates, bind_ok, ensure_ok]
  refine ⟨(), length_join_of_single fun u hu => ?_, ?_⟩
  · obtain ⟨r, hr, he⟩ := h.exact u hu
    rw [h.rows.filter_eq_singleton hr he fun s _ hs =>
      (EventRow.key_of_isExact hs).trans (EventRow.key_of_isExact he).symm]
    rfl
  · rw [countP_eq_zero]
    intro u hu
    simp [EventTimestampUpdate.consistentProvenance_of_valid (h.valid u hu)]

variable {r : EventRow}

theorem Staged.isExact (h : Staged events staged) (hr : r ∈ events) (hu : u ∈ staged)
    (hk : r.key = u.key) : r.isExact u = true := by
  obtain ⟨s, hs, he⟩ := h.exact u hu
  rw [h.rows.eq_of_key hr hs (hk.trans (EventRow.key_of_isExact he).symm)]
  exact he

theorem Staged.isExpected (h : Staged events staged) (hr : r ∈ events) (hu : u ∈ staged)
    (hk : r.key = u.key) : r.isExpected u = true :=
  (EventRow.isExact_iff.mp (h.isExact hr hu hk)).1

theorem Staged.covers (h : Staged events staged) :
    ∀ u ∈ staged, ∃ r ∈ events, EventRow.key r = u.key := by
  intro u hu
  obtain ⟨r, hr, he⟩ := h.exact u hu
  exact ⟨r, hr, EventRow.key_of_isExact he⟩

theorem Staged.find?_named (h : Staged events staged) (hr : r ∈ events) (hu : u ∈ staged)
    (hk : r.key = u.key) : staged.find? r.isExpected = some u :=
  h.keys.find?_eq_some hu (h.isExpected hr hu hk) fun _ _ hv =>
    (EventRow.isExpected_iff.mp hv).1.symm.trans hk

def reviseBy (staged : List EventTimestampUpdate) (r : EventRow) : EventRow :=
  updateRow EventRow.isExpected EventRow.revise staged r

theorem publishStaged_eq (staged : List EventTimestampUpdate) (events : List EventRow) :
    publishStaged staged events = events.map (reviseBy staged) := rfl

@[simp] theorem reviseBy_key (r : EventRow) : (reviseBy staged r).key = r.key := by
  unfold reviseBy updateRow
  split <;> rfl

theorem Staged.reviseBy_named (h : Staged events staged) (hr : r ∈ events) (hu : u ∈ staged)
    (hk : r.key = u.key) : reviseBy staged r = r.revise u :=
  updateRow_of_find (h.find?_named hr hu hk)

theorem reviseBy_unnamed (hk : ∀ u ∈ staged, r.key ≠ u.key) : reviseBy staged r = r :=
  updateRow_of_none fun u hu => Bool.eq_false_iff.mpr fun he =>
    hk u hu (EventRow.isExpected_iff.mp he).1

theorem any_sameEvent (r : EventRow) :
    staged.any r.sameEvent = named EventRow.key EventTimestampUpdate.key staged r := by
  unfold named
  congr 1
  funext u
  exact Bool.eq_iff_iff.mpr (by simpa using EventRow.sameEvent_iff)

theorem not_named (h : named EventRow.key EventTimestampUpdate.key staged r = false) :
    ∀ u ∈ staged, r.key ≠ u.key := by
  intro u hu hk
  have := named_iff.mpr ⟨u, hu, hk⟩
  simp [this] at h

theorem Staged.updatedCount (h : Staged events staged) :
    updatedCount EventRow.isExpected staged events = staged.length := by
  rw [← length_named h.rows h.keys h.covers]
  refine countP_congr fun r hr => ?_
  rw [any_eq_true, named_iff]
  constructor
  · rintro ⟨u, hu, he⟩
    exact ⟨u, hu, (EventRow.isExpected_iff.mp he).1⟩
  · rintro ⟨u, hu, hk⟩
    exact ⟨u, hu, h.isExpected hr hu hk⟩

/-! ## The wall-clock count -/

/-- `1` for a row that counts as wall-clock time. -/
def EventRow.wall (r : EventRow) : Int := if r.isWall then 1 else 0

theorem countP_isWall (l : List EventRow) :
    (l.countP EventRow.isWall : Int) = (l.map EventRow.wall).sum := by
  induction l with
  | nil => rfl
  | cons r l ih =>
    simp only [countP_cons, map_cons, sum_cons, EventRow.wall, Nat.cast_add, ih]
    split
    · simp; omega
    · simp

theorem sum_of_unnamed_zero {f : EventRow → Int}
    (hf : ∀ r ∈ events, named EventRow.key EventTimestampUpdate.key staged r = false → f r = 0) :
    (events.map f).sum =
      ((events.filter (named EventRow.key EventTimestampUpdate.key staged)).map f).sum := by
  induction events with
  | nil => rfl
  | cons r l ih =>
    have ih := ih fun s hs => hf s (mem_cons_of_mem _ hs)
    cases hn : named EventRow.key EventTimestampUpdate.key staged r with
    | true => simp [hn, ih]
    | false => simp [hn, ih, hf r mem_cons_self hn]

theorem sum_sub (f g : EventRow → Int) (l : List EventRow) :
    (l.map f).sum = (l.map g).sum + (l.map fun r => f r - g r).sum := by
  induction l with
  | nil => rfl
  | cons r l ih =>
    simp only [map_cons, sum_cons, ih]
    omega

theorem Staged.wall_delta (h : Staged events staged) :
    ((publishStaged staged events).countP EventRow.isWall : Int) =
      events.countP EventRow.isWall + (staged.map fun u =>
        wallOne u.revisedActiveTimestampBasis - wallOne u.expectedActiveTimestampBasis).sum := by
  have hzero : ∀ r ∈ events, named EventRow.key EventTimestampUpdate.key staged r = false →
      (EventRow.wall ∘ reviseBy staged) r - r.wall = 0 := by
    intro r _ hn
    rw [Function.comp, reviseBy_unnamed (not_named hn), sub_self]
  rw [countP_isWall, countP_isWall, publishStaged_eq, map_map,
    sum_sub (EventRow.wall ∘ reviseBy staged) EventRow.wall, sum_of_unnamed_zero hzero]
  congr 1
  refine (matched_perm h.rows h.keys h.covers fun r hr u hu hk => ?_).sum_eq
  have hb := (EventRow.isExpected_iff.mp (h.isExpected hr hu hk)).2.2
  simp only [Function.comp, h.reviseBy_named hr hu hk, EventRow.wall, EventRow.isWall,
    EventRow.revise, hb, wallOne, Option.any_some]

/-! ## The extremes -/

theorem Staged.count_at_boundary (h : Staged events staged) (boundary : Int) :
    (events.filter (named EventRow.key EventTimestampUpdate.key staged)).countP
        (fun r => r.ts = boundary) =
      staged.countP fun u => u.expectedTs = boundary := by
  have hp := matched_perm h.rows h.keys h.covers (f := EventRow.ts)
    (g := EventTimestampUpdate.expectedTs) fun r hr u hu hk =>
      (EventRow.isExpected_iff.mp (h.isExpected hr hu hk)).2.1
  have := hp.countP_eq (fun t => decide (t = boundary))
  simpa [countP_map, Function.comp_def] using this

variable {boundary : Int}

theorem Staged.unnamed_at_boundary (h : Staged events staged)
    (hlt : staged.countP (fun u => u.expectedTs = boundary) <
      events.countP fun r => r.ts = boundary) :
    boundary ∈ (events.filter fun r => !staged.any r.sameEvent).map EventRow.ts := by
  by_contra hno
  have hall : ∀ r ∈ events, r.ts = boundary →
      named EventRow.key EventTimestampUpdate.key staged r = true := by
    intro r hr ht
    by_contra hn
    refine hno (mem_map.mpr ⟨r, mem_filter.mpr ⟨hr, ?_⟩, ht⟩)
    rw [any_sameEvent]
    simpa using hn
  rw [← h.count_at_boundary, countP_filter] at hlt
  refine absurd (countP_mono_left fun r hr ht => ?_) (Nat.not_le.mpr hlt)
  simpa [hall r hr (by simpa using ht)] using ht

theorem Staged.unchangedBoundary_eq (h : Staged events staged) {minimum : Bool}
    (hb : extreme minimum (events.map EventRow.ts) = some boundary) :
    unchangedBoundary events staged boundary minimum =
      extreme minimum ((events.filter fun r => !staged.any r.sameEvent).map EventRow.ts) := by
  obtain ⟨hmem, hbest⟩ := extreme_eq_some.mp hb
  -- an unnamed row at the boundary makes the boundary their extreme
  have hkeep : boundary ∈ (events.filter fun r => !staged.any r.sameEvent).map EventRow.ts →
      some boundary =
        extreme minimum ((events.filter fun r => !staged.any r.sameEvent).map EventRow.ts) := by
    intro hin
    refine (extreme_eq_some.mpr ⟨hin, fun b hb' => hbest b ?_⟩).symm
    exact (filter_sublist.map EventRow.ts).subset hb'
  simp only [unchangedBoundary]
  split
  · rename_i hzero
    refine hkeep (h.unnamed_at_boundary ?_)
    rw [hzero, countP_pos_iff]
    obtain ⟨r, hr, ht⟩ := mem_map.mp hmem
    exact ⟨r, hr, by simpa using ht⟩
  · split
    · rename_i hlt
      exact hkeep (h.unnamed_at_boundary hlt)
    · rfl

theorem Staged.mem_ts_publish (h : Staged events staged) (t : Int) :
    t ∈ (publishStaged staged events).map EventRow.ts ↔
      t ∈ (events.filter fun r => !staged.any r.sameEvent).map EventRow.ts ++
        staged.map EventTimestampUpdate.revisedTs := by
  simp only [publishStaged_eq, map_map, mem_append, mem_map, mem_filter,
    Function.comp, any_sameEvent, Bool.not_eq_true']
  constructor
  · rintro ⟨r, hr, rfl⟩
    cases hn : named EventRow.key EventTimestampUpdate.key staged r with
    | false => exact .inl ⟨r, ⟨hr, hn⟩, by rw [reviseBy_unnamed (not_named hn)]⟩
    | true =>
      obtain ⟨u, hu, hk⟩ := named_iff.mp hn
      exact .inr ⟨u, hu, by rw [h.reviseBy_named hr hu hk]; rfl⟩
  · rintro (⟨r, ⟨hr, hn⟩, rfl⟩ | ⟨u, hu, rfl⟩)
    · exact ⟨r, hr, by rw [reviseBy_unnamed (not_named hn)]⟩
    · obtain ⟨r, hr, hk⟩ := h.covers u hu
      exact ⟨r, hr, by rw [h.reviseBy_named hr hu hk]; rfl⟩

theorem Staged.extreme_publish (h : Staged events staged) {minimum : Bool} {revised : Int}
    (hb : extreme minimum (events.map EventRow.ts) = some boundary)
    (hr : extreme minimum (staged.map EventTimestampUpdate.revisedTs) = some revised) :
    extreme minimum ((publishStaged staged events).map EventRow.ts) =
      some ((unchangedBoundary events staged boundary minimum).elim revised
        fun value => pick minimum value revised) := by
  rw [extreme_congr h.mem_ts_publish, extreme_append hr, h.unchangedBoundary_eq hb]

theorem Staged.revisedStats_eq (h : Staged events staged) :
    revisedStats events staged (recount events) =
      .ok (recount (publishStaged staged events)) := by
  have hs : staged.map EventTimestampUpdate.revisedTs ≠ [] := by simpa using h.nonempty
  have he : events.map EventRow.ts ≠ [] := by
    intro hnil
    obtain ⟨u, hu⟩ := exists_mem_of_ne_nil staged h.nonempty
    obtain ⟨r, hr, -⟩ := h.exact u hu
    simp [map_eq_nil_iff.mp hnil] at hr
  obtain ⟨lo, hlo⟩ := extreme_isSome true he
  obtain ⟨hi, hhi⟩ := extreme_isSome false he
  obtain ⟨rlo, hrlo⟩ := extreme_isSome true hs
  obtain ⟨rhi, hrhi⟩ := extreme_isSome false hs
  have hw := h.wall_delta
  have hlen : (publishStaged staged events).length = events.length := length_updateFrom ..
  have hle : (publishStaged staged events).countP EventRow.isWall ≤ events.length :=
    hlen ▸ countP_le_length
  have hmin := h.extreme_publish hlo hrlo
  have hmax := h.extreme_publish hhi hrhi
  simp only [pick, ↓reduceIte, Bool.false_eq_true] at hmin hmax
  simp only [revisedStats, recount, hlo, hhi, hrlo, hrhi, hmin, hmax, hlen]
  rw [← hw]
  simp [ensure, require, hle, bind, Except.bind, pure, Except.pure]

theorem storedRevisionStats_recount (events : List EventRow) :
    storedRevisionStats (recount events) = .ok (recount events) := by
  have hw : events.countP EventRow.isWall ≤ events.length := countP_le_length
  cases events with
  | nil => rfl
  | cons r l =>
    have he : (r :: l).map EventRow.ts ≠ [] := by simp
    obtain ⟨lo, hlo⟩ := extreme_isSome true he
    obtain ⟨hi, hhi⟩ := extreme_isSome false he
    have hord : ¬ hi < lo := by
      have h1 := (extreme_eq_some.mp hlo).2 hi (extreme_eq_some.mp hhi).1
      simp only [Beats, ↓reduceIte] at h1
      omega
    simp [storedRevisionStats, recount, hlo, hhi, ensure, hw, hord, bind, Except.bind, pure,
      Except.pure, -length_cons, -map_cons]

end

end ContextDesk.LogAnalysis
