import Mathlib.Algebra.Order.Group.Multiset
import ContextDesk.LogAnalysis.Exceptions.LaneSteps

/-!
# Runs over the lanes

What a scan of the events keeps. `forall_renderings` is the rule for a property of single
renderings: new ones have it and a record or a cause keeps it. `cited` is what the finished and the
open renderings cite, with multiplicity; an event adds its own citation at most once
(`cited_step`), so no event is cited twice.
-/

open List

namespace ContextDesk.LogAnalysis.Exceptions

open Lib Lib.Slots

/-! ## Finishing -/

theorem finishEpisode_cases (s : LaneState) (e : RenderEpisode) :
    (s.episodes.length < renderCap ∧
      s.finishEpisode e = { s with episodes := s.episodes ++ [e] }) ∨
    (renderCap ≤ s.episodes.length ∧ s.finishEpisode e = { s with isPartial := true }) := by
  unfold LaneState.finishEpisode
  split
  · exact .inl ⟨‹_›, rfl⟩
  · exact .inr ⟨by omega, rfl⟩

theorem finishAll_openWrap (s : LaneState) (es : List RenderEpisode) :
    (s.finishAll es).openWrap = s.openWrap := by
  induction es generalizing s with
  | nil => rfl
  | cons e es ih =>
    refine (ih (s.finishEpisode e)).trans ?_
    rcases finishEpisode_cases s e with ⟨-, h⟩ | ⟨-, h⟩ <;> rw [h]

theorem finishAll_episodes (s : LaneState) (es : List RenderEpisode)
    (hcap : s.episodes.length ≤ renderCap) :
    (s.finishAll es).episodes = (s.episodes ++ es).take renderCap := by
  induction es generalizing s with
  | nil =>
    rw [append_nil, take_of_length_le hcap]
    rfl
  | cons e es ih =>
    show ((s.finishEpisode e).finishAll es).episodes = _
    rcases finishEpisode_cases s e with ⟨hlt, h⟩ | ⟨hle, h⟩
    · rw [h, ih _ (by simpa using hlt)]
      simp
    · have hstop := ih { s with isPartial := true } hcap
      rw [h, hstop, take_append_of_le_length hle, take_append_of_le_length hle]

theorem closeWhere_openWrap (p : WrapLaneKey → Bool) (s : LaneState) :
    (s.closeWhere p).openWrap = s.openWrap.filter fun entry => !p entry.1 :=
  finishAll_openWrap _ _

theorem closeWhere_episodes (p : WrapLaneKey → Bool) {s : LaneState}
    (hcap : s.episodes.length ≤ renderCap) :
    (s.closeWhere p).episodes =
      (s.episodes ++ (s.openWrap.filter fun entry => p entry.1).map Prod.snd).take renderCap :=
  finishAll_episodes _ _ hcap

/-- The state of the lanes is a table, and the cap holds. -/
structure LaneState.Valid (s : LaneState) : Prop where
  unique : Unique s.openWrap
  cap : s.episodes.length ≤ renderCap

theorem valid_start : LaneState.start.Valid := ⟨nodup_nil, Nat.zero_le _⟩

theorem LaneState.Valid.closeWhere {s : LaneState} (h : s.Valid) (p : WrapLaneKey → Bool) :
    (s.closeWhere p).Valid where
  unique := by
    rw [closeWhere_openWrap]
    exact h.unique.filter _
  cap := by
    rw [closeWhere_episodes p h.cap]
    exact length_take_le _ _

theorem LaneState.Valid.finishEpisode {s : LaneState} (h : s.Valid) (e : RenderEpisode) :
    (s.finishEpisode e).Valid := by
  rcases finishEpisode_cases s e with ⟨hlt, heq⟩ | ⟨-, heq⟩
  · rw [heq]
    exact ⟨h.unique, by simpa using hlt⟩
  · rw [heq]
    exact ⟨h.unique, h.cap⟩

section

variable (event : ExplorerEvent) (s : LaneState)

theorem apply_closeSource :
    s.apply event .closeSource = s.closeWhere fun key => key.source = event.source := rfl

theorem apply_closeLane : s.apply event .closeLane =
    s.closeWhere fun key => key = wrapLaneKey event.source (envelopeOf event) := rfl

theorem apply_start (e : RenderEpisode) : s.apply event (.start e) =
    ⟨s.episodes, put WrapLaneKey.before (wrapLaneKey event.source (envelopeOf event)) e s.openWrap,
      s.isPartial⟩ := rfl

theorem apply_attachCause (signature : Chars) : s.apply event (.attachCause signature) =
    ⟨s.episodes, alter (wrapLaneKey event.source (envelopeOf event))
      (attachCause event (envelopeOf event) signature) s.openWrap, s.isPartial⟩ := rfl

end

theorem LaneState.Valid.apply {s : LaneState} (h : s.Valid) (event : ExplorerEvent)
    (m : LaneMove) : (s.apply event m).Valid := by
  cases m with
  | closeSource =>
    rw [apply_closeSource]
    exact h.closeWhere _
  | closeLane =>
    rw [apply_closeLane]
    exact h.closeWhere _
  | finish e => exact h.finishEpisode e
  | start e => exact ⟨h.unique.put _ _ _, h.cap⟩
  | attach => exact ⟨h.unique.alter _ _, h.cap⟩
  | attachCause signature =>
    rw [apply_attachCause]
    exact ⟨h.unique.alter _ _, h.cap⟩

theorem LaneState.Valid.moves {s : LaneState} (h : s.Valid) (event : ExplorerEvent)
    (moves : List LaneMove) : (moves.foldl (LaneState.apply event) s).Valid :=
  List.foldlRecOn (motive := LaneState.Valid) _ _ h fun _ hs m _ => hs.apply event m

theorem LaneState.Valid.step {s s' : LaneState} (h : s.Valid) {event : ExplorerEvent}
    (hstep : s.step event = .ok s') : s'.Valid := by
  unfold LaneState.step at hstep
  obtain ⟨moves, -, hstep⟩ := except_bind_ok.mp hstep
  cases hstep
  exact h.moves event moves

variable {events : List ExplorerEvent}

theorem valid_scan {s : LaneState} (h : scanLanes events = .ok s) : s.Valid :=
  foldlM_keeps (fun _ s => LaneState.Valid s) valid_start (fun _ _ _ _ h hstep => h.step hstep) h

/-! ## Properties of single renderings -/

def LaneState.renderings (s : LaneState) : List RenderEpisode :=
  s.episodes ++ s.openWrap.map Prod.snd

theorem mem_closeWhere {p : WrapLaneKey → Bool} {s : LaneState} (hs : s.Valid) {r : RenderEpisode}
    (hr : r ∈ (s.closeWhere p).renderings) : r ∈ s.renderings := by
  unfold LaneState.renderings at hr ⊢
  rw [closeWhere_openWrap, closeWhere_episodes p hs.cap] at hr
  rcases mem_append.mp hr with hr | hr
  · rcases mem_append.mp (mem_of_mem_take hr) with hr | hr
    · exact mem_append_left _ hr
    · exact mem_append_right _ (map_subset _ (filter_subset_self _) hr)
  · exact mem_append_right _ (map_subset _ (filter_subset_self _) hr)

theorem mem_finishEpisode {s : LaneState} {e r : RenderEpisode}
    (hr : r ∈ (s.finishEpisode e).renderings) : r = e ∨ r ∈ s.renderings := by
  unfold LaneState.renderings at hr ⊢
  rcases finishEpisode_cases s e with ⟨-, h⟩ | ⟨-, h⟩
  · rw [h] at hr
    simp only [append_assoc, mem_append, mem_singleton] at hr ⊢
    rcases hr with hr | hr | hr
    · exact .inr (.inl hr)
    · exact .inl hr
    · exact .inr (.inr hr)
  · rw [h] at hr
    exact .inr hr

section

variable {P : RenderEpisode → Prop}

/-- What keeps a property of single renderings. -/
structure Kept (P : RenderEpisode → Prop) : Prop where
  fresh : ∀ {event env signature kind e}, newEpisode event env signature kind = .ok e → P e
  attached : ∀ {event env o}, P o → P (attach event env o)
  cause : ∀ {o : RenderEpisode} {signature}, P o → P { o with signature := signature }

theorem altered {s : LaneState} (hs : ∀ r ∈ s.renderings, P r) {k : WrapLaneKey}
    {f : RenderEpisode → RenderEpisode} (hf : ∀ o, P o → P (f o)) :
    ∀ r ∈ ({ s with openWrap := alter k f s.openWrap } : LaneState).renderings, P r := by
  intro r hr
  rcases mem_append.mp hr with hr | hr
  · exact hs r (mem_append_left _ hr)
  · rcases mem_alter hr with hr | ⟨o, ho, rfl⟩
    · exact hs r (mem_append_right _ hr)
    · exact hf o (hs o (mem_append_right _ ho))

theorem Kept.apply (h : Kept P) {s : LaneState} (hvalid : s.Valid) (hs : ∀ r ∈ s.renderings, P r)
    {event : ExplorerEvent} {m : LaneMove}
    (hm : ∀ e ∈ m.brings, P e) :
    ∀ r ∈ (s.apply event m).renderings, P r := by
  cases m with
  | closeSource => exact fun r hr => hs r (mem_closeWhere hvalid hr)
  | closeLane => exact fun r hr => hs r (mem_closeWhere hvalid hr)
  | finish e =>
    intro r hr
    rcases mem_finishEpisode hr with rfl | hr
    · exact hm r rfl
    · exact hs r hr
  | start e =>
    intro r hr
    rw [apply_start] at hr
    rcases mem_append.mp hr with hr | hr
    · exact hs r (mem_append_left _ hr)
    · rw [((put_perm _ _ _ _).map _).mem_iff, map_cons] at hr
      rcases mem_cons.mp hr with rfl | hr
      · exact hm _ rfl
      · exact hs r (mem_append_right _ (map_subset _ (filter_subset_self _) hr))
  | attach => exact altered hs fun o ho => h.attached ho
  | attachCause signature => exact altered hs fun o ho => h.cause (h.attached ho)

theorem Kept.step (h : Kept P) {s s' : LaneState} (hvalid : s.Valid)
    (hs : ∀ r ∈ s.renderings, P r) {event : ExplorerEvent} (hstep : s.step event = .ok s') :
    ∀ r ∈ s'.renderings, P r := by
  unfold LaneState.step at hstep
  obtain ⟨moves, hmoves, hstep⟩ := except_bind_ok.mp hstep
  cases hstep
  have hrun : (moves.foldl (LaneState.apply event) s).Valid ∧
      ∀ r ∈ (moves.foldl (LaneState.apply event) s).renderings, P r := by
    refine List.foldlRecOn (motive := fun s : LaneState => s.Valid ∧ ∀ r ∈ s.renderings, P r) _ _
      ⟨hvalid, hs⟩ ?_
    rintro s ⟨hvalid, hs⟩ m hm
    refine ⟨hvalid.apply event m, h.apply hvalid hs fun e he => ?_⟩
    obtain ⟨signature, kind, hnew⟩ := brings_of_laneMoves hmoves hm he
    exact h.fresh hnew
  exact hrun.2

theorem Kept.scan (h : Kept P) {s : LaneState} (hscan : scanLanes events = .ok s) :
    ∀ r ∈ s.renderings, P r := by
  have hrun : s.Valid ∧ ∀ r ∈ s.renderings, P r := by
    refine foldlM_keeps (fun _ s => LaneState.Valid s ∧ ∀ r ∈ s.renderings, P r)
      ⟨valid_start, fun r hr => absurd hr not_mem_nil⟩ ?_ hscan
    exact fun _ _ _ _ ⟨hvalid, hs⟩ hstep => ⟨hvalid.step hstep, h.step hvalid hs hstep⟩
  exact hrun.2

end

/-! ## What is cited -/

/-- An event as its citations name it: sequence, source, template. -/
abbrev CitedEvent := UInt64 × String × UInt64

def ExceptionEventCitation.cites (c : ExceptionEventCitation) : CitedEvent :=
  (c.seq, c.source, c.templateId)

def eventCited (e : ExplorerEvent) : CitedEvent := (e.seq, e.source, e.templateId)

def citedOf (renderings : List RenderEpisode) : Multiset CitedEvent :=
  (renderings.map fun r => (↑(r.citations.map ExceptionEventCitation.cites) :
    Multiset CitedEvent)).sum

def LaneState.cited (s : LaneState) : Multiset CitedEvent := citedOf s.renderings

theorem citedOf_append (l l' : List RenderEpisode) :
    citedOf (l ++ l') = citedOf l + citedOf l' := by
  simp [citedOf]

theorem citedOf_cons (r : RenderEpisode) (l : List RenderEpisode) :
    citedOf (r :: l) = ↑(r.citations.map ExceptionEventCitation.cites) + citedOf l := by
  simp [citedOf]

theorem citedOf_perm {l l' : List RenderEpisode} (h : l.Perm l') : citedOf l = citedOf l' :=
  (h.map _).sum_eq

theorem citedOf_eq (l : List RenderEpisode) :
    citedOf l = ↑((l.flatMap (·.citations)).map ExceptionEventCitation.cites) := by
  induction l with
  | nil => rfl
  | cons r l ih => rw [citedOf_cons, ih, flatMap_cons, map_append, Multiset.coe_add]

theorem citedOf_take (n : Nat) (l : List RenderEpisode) : citedOf (l.take n) ≤ citedOf l := by
  conv_rhs => rw [← take_append_drop n l, citedOf_append]
  exact Multiset.le_add_right _ _

theorem cited_closeWhere {s : LaneState} (hs : s.Valid) (p : WrapLaneKey → Bool) :
    (s.closeWhere p).cited ≤ s.cited := by
  have hsplit : (s.openWrap.map Prod.snd).Perm
      ((s.openWrap.filter fun entry => p entry.1).map Prod.snd ++
        (s.openWrap.filter fun entry => !p entry.1).map Prod.snd) := by
    rw [← map_append]
    exact (filter_append_perm _ _).symm.map _
  unfold LaneState.cited LaneState.renderings
  rw [closeWhere_openWrap, closeWhere_episodes p hs.cap, citedOf_append, citedOf_append,
    citedOf_perm hsplit, citedOf_append, ← add_assoc]
  refine add_le_add_left ?_ _
  rw [← citedOf_append]
  exact citedOf_take _ _

theorem cited_close {s : LaneState} (hs : s.Valid) (event : ExplorerEvent) {close : LaneMove}
    (hclose : close = .closeSource ∨ close = .closeLane) :
    (s.apply event close).cited ≤ s.cited := by
  rcases hclose with rfl | rfl
  · rw [apply_closeSource]
    exact cited_closeWhere hs _
  · rw [apply_closeLane]
    exact cited_closeWhere hs _

theorem cited_finishEpisode (s : LaneState) (e : RenderEpisode) :
    (s.finishEpisode e).cited ≤ s.cited + citedOf [e] := by
  unfold LaneState.cited LaneState.renderings
  rcases finishEpisode_cases s e with ⟨-, h⟩ | ⟨-, h⟩
  · rw [h]
    dsimp only
    rw [citedOf_append, citedOf_append, citedOf_append, add_right_comm]
  · rw [h]
    exact Multiset.le_add_right _ _

theorem citedOf_attach (event : ExplorerEvent) (env : ExceptionEnvelope) (o : RenderEpisode) :
    citedOf [attach event env o] ≤ citedOf [o] + {eventCited event} := by
  unfold attach
  split
  · exact Multiset.le_add_right _ _
  · simp only [citedOf, map_cons, map_nil, sum_cons, sum_nil, add_zero,
      map_append, ← Multiset.coe_add]
    exact le_refl _

theorem cited_alter {s : LaneState} (hs : s.Valid) (k : WrapLaneKey)
    {f : RenderEpisode → RenderEpisode} {added : Multiset CitedEvent}
    (hf : ∀ o, citedOf [f o] ≤ citedOf [o] + added) :
    (⟨s.episodes, alter k f s.openWrap, s.isPartial⟩ : LaneState).cited ≤ s.cited + added := by
  unfold LaneState.cited LaneState.renderings
  dsimp only
  rw [citedOf_append, citedOf_append, add_assoc]
  refine add_le_add_right ?_ _
  cases hget : get k s.openWrap with
  | none =>
    have hsame : alter k f s.openWrap = s.openWrap := by
      unfold alter
      refine (map_congr_left fun entry hentry => ?_).trans (map_id _)
      have hne := find?_eq_none.mp (Option.map_eq_none_iff.mp hget) entry hentry
      exact if_neg (by simpa using hne)
    rw [hsame]
    exact Multiset.le_add_right _ _
  | some o =>
    rw [citedOf_perm ((alter_perm hs.unique hget f).map Prod.snd),
      citedOf_perm ((perm_of_get hs.unique hget).map Prod.snd), map_cons, map_cons,
      ← singleton_append, citedOf_append, ← singleton_append (x := o), citedOf_append,
      add_right_comm]
    exact add_le_add_left (hf o) _

theorem cited_place {s : LaneState} (event : ExplorerEvent) {e : RenderEpisode}
    {place : RenderEpisode → LaneMove} (hplace : place = .finish ∨ place = .start) :
    (s.apply event (place e)).cited ≤ s.cited + citedOf [e] := by
  rcases hplace with rfl | rfl
  · exact cited_finishEpisode s e
  · rw [apply_start]
    unfold LaneState.cited LaneState.renderings
    dsimp only
    rw [citedOf_append, citedOf_append, citedOf_perm ((put_perm _ _ _ _).map Prod.snd),
      map_cons, ← singleton_append, citedOf_append, add_assoc,
      add_comm (citedOf [e])]
    refine add_le_add_right (add_le_add_left ?_ _) _
    have hperm := (filter_append_perm (fun entry : WrapLaneKey × RenderEpisode =>
      decide (entry.1 ≠ wrapLaneKey event.source (envelopeOf event))) s.openWrap).map Prod.snd
    rw [← citedOf_perm hperm, map_append, citedOf_append]
    exact Multiset.le_add_right _ _

theorem cited_step {s s' : LaneState} (hs : s.Valid) {event : ExplorerEvent}
    (hstep : s.step event = .ok s') : s'.cited ≤ s.cited + {eventCited event} := by
  unfold LaneState.step at hstep
  obtain ⟨moves, hmoves, hstep⟩ := except_bind_ok.mp hstep
  cases hstep
  rcases laneMoves_ok hmoves with hcases | ⟨o, move, -, -, hmove, rfl⟩ |
    ⟨signature, kind, e, close, place, he, hplace, rfl⟩
  · rcases hcases with rfl | rfl | rfl
    · exact Multiset.le_add_right _ _
    · exact (cited_close hs event (.inl rfl)).trans (Multiset.le_add_right _ _)
    · exact (cited_close hs event (.inr rfl)).trans (Multiset.le_add_right _ _)
  · rcases hmove with rfl | ⟨signature, rfl⟩
    · exact cited_alter hs _ (citedOf_attach event _)
    · exact cited_alter hs _ (citedOf_attach event _)
  · have hclose : (s.apply event close).cited ≤ s.cited := by
      refine cited_close hs event ?_
      rcases hplace with ⟨hclose, -⟩ | ⟨hclose, -⟩
      · exact .inl hclose
      · exact .inr hclose
    have hput : place = .finish ∨ place = .start := by
      rcases hplace with ⟨-, hput⟩ | ⟨-, hput⟩
      · exact .inl hput
      · exact hput
    have hnew : citedOf [e] = {eventCited event} := by
      unfold citedOf
      rw [map_singleton, sum_singleton, (newEpisode_fresh he).1]
      rfl
    rw [← hnew]
    exact (cited_place event hput).trans (add_le_add_left hclose _)

/-- The scan cites an event at most once. -/
theorem cited_scan {s : LaneState} (h : scanLanes events = .ok s) :
    s.cited ≤ ↑(events.map eventCited) := by
  have hrun : s.Valid ∧ s.cited ≤ ↑(events.map eventCited) := by
    refine foldlM_keeps (fun seen s => LaneState.Valid s ∧ s.cited ≤ ↑(seen.map eventCited))
      ⟨valid_start, le_refl _⟩ ?_ h
    rintro front event s s' ⟨hvalid, hcited⟩ hstep
    refine ⟨hvalid.step hstep, (cited_step hvalid hstep).trans ?_⟩
    rw [map_append, ← Multiset.coe_add]
    exact add_le_add_left hcited _
  exact hrun.2

/-- **The renderings cite each event at most once, under its own template.** -/
theorem cited_derive {renderings : List RenderEpisode} {isPartial : Bool}
    (h : deriveRenderEpisodes events = .ok (renderings, isPartial)) :
    (↑((renderings.flatMap (·.citations)).map ExceptionEventCitation.cites) : Multiset CitedEvent) ≤
      ↑(events.map eventCited) := by
  unfold deriveRenderEpisodes at h
  obtain ⟨s, hscan, h⟩ := except_bind_ok.mp h
  cases h
  rw [← citedOf_eq]
  refine le_trans ?_ ((cited_closeWhere (valid_scan hscan) fun _ => true).trans (cited_scan hscan))
  unfold LaneState.close LaneState.cited LaneState.renderings
  rw [citedOf_append]
  exact Multiset.le_add_right _ _

end ContextDesk.LogAnalysis.Exceptions
