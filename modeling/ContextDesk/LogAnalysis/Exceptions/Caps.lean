import ContextDesk.LogAnalysis.Exceptions.Conservation

/-!
# What the caps leave out

A `Watched` rendering remembers the records that it refused, and a `Watch` keeps every rendering
that is finished, so it is the state of the lanes as it would be without a cap on the renderings.
The lanes follow the watch step by step (`scan_follows`): the code keeps the first `renderCap`
renderings, and a rendering is complete as long as it refused nothing.
-/

namespace ContextDesk.LogAnalysis.Exceptions

open Lib Lib.Slots Lib.ByteIndex List

structure Watched where
  episode : RenderEpisode
  refused : List ExplorerEvent

/-- A record that comes when the rendering is full is refused. -/
def Watched.offer (event : ExplorerEvent) (f : RenderEpisode → RenderEpisode) (o : Watched) :
    Watched where
  episode := f o.episode
  refused := if recordCap ≤ o.episode.citations.length then o.refused ++ [event] else o.refused

structure Watch where
  finished : List Watched
  openWrap : List (WrapLaneKey × Watched)

namespace Watch

def start : Watch := ⟨[], []⟩

def closeWhere (p : WrapLaneKey → Bool) (w : Watch) : Watch where
  finished := w.finished ++ (w.openWrap.filter fun entry => p entry.1).map Prod.snd
  openWrap := w.openWrap.filter fun entry => !p entry.1

def apply (event : ExplorerEvent) (w : Watch) : LaneMove → Watch :=
  let env := envelopeOf event
  let lane := wrapLaneKey event.source env
  fun
  | .closeSource => w.closeWhere fun key => key.source = event.source
  | .closeLane => w.closeWhere fun key => key = lane
  | .finish episode => { w with finished := w.finished ++ [⟨episode, []⟩] }
  | .start episode => { w with openWrap := put WrapLaneKey.before lane ⟨episode, []⟩ w.openWrap }
  | .attach =>
    { w with openWrap := alter lane (Watched.offer event (attach event env)) w.openWrap }
  | .attachCause signature =>
    { w with
      openWrap := alter lane (Watched.offer event (attachCause event env signature)) w.openWrap }

def laneOf (w : Watch) (event : ExplorerEvent) : Option Watched :=
  get (wrapLaneKey event.source (envelopeOf event)) w.openWrap

def step (w : Watch) (event : ExplorerEvent) : Exec Watch := do
  let moves ← laneMoves ((w.laneOf event).map Watched.episode) event
  return moves.foldl (apply event) w

end Watch

structure Follows (s : LaneState) (w : Watch) : Prop where
  lanes : s.openWrap = mapItems Watched.episode w.openWrap
  kept : s.episodes = (w.finished.map Watched.episode).take renderCap
  flag : s.isPartial = decide (renderCap < w.finished.length)

variable {s : LaneState} {w : Watch}

theorem Follows.finish (h : Follows s w) (o : Watched) :
    Follows (s.finishEpisode o.episode) { w with finished := w.finished ++ [o] } := by
  have hlength : s.episodes.length = min renderCap w.finished.length := by
    rw [h.kept, length_take, length_map]
  rcases finishEpisode_cases s o.episode with ⟨hlt, heq⟩ | ⟨hle, heq⟩
  · have hfree : w.finished.length < renderCap := by omega
    rw [heq]
    refine ⟨h.lanes, ?_, ?_⟩
    · show s.episodes ++ [o.episode] = _
      rw [h.kept, take_of_length_le (by simpa using hfree.le),
        take_of_length_le (by simpa using hfree), map_append, map_singleton]
    · show s.isPartial = _
      rw [h.flag]
      simp only [length_append, length_singleton]
      exact decide_eq_decide.mpr (by omega)
  · have hfull : renderCap ≤ w.finished.length := by omega
    rw [heq]
    refine ⟨h.lanes, ?_, ?_⟩
    · show s.episodes = _
      rw [h.kept, map_append, take_append_of_le_length (by simpa using hfull)]
    · show true = _
      simp only [length_append, length_singleton]
      exact (decide_eq_true (by omega)).symm

theorem Follows.finishAll (h : Follows s w) (os : List Watched) :
    Follows (s.finishAll (os.map Watched.episode)) { w with finished := w.finished ++ os } := by
  induction os generalizing s w with
  | nil =>
    rw [append_nil]
    exact h
  | cons o os ih =>
    have hrest := ih (h.finish o)
    rwa [append_assoc] at hrest

theorem Follows.closeWhere (h : Follows s w) (p : WrapLaneKey → Bool) :
    Follows (s.closeWhere p) (w.closeWhere p) := by
  have hfilter : ∀ q : WrapLaneKey → Bool, (s.openWrap.filter fun entry => q entry.1) =
      mapItems Watched.episode (w.openWrap.filter fun entry => q entry.1) := by
    intro q
    rw [h.lanes]
    exact filter_map
  have hclosed : (s.openWrap.filter fun entry => p entry.1).map Prod.snd =
      ((w.openWrap.filter fun entry => p entry.1).map Prod.snd).map Watched.episode := by
    rw [hfilter p]
    unfold mapItems
    rw [map_map, map_map]
    rfl
  unfold LaneState.closeWhere
  rw [hclosed]
  have hopen : Follows { s with openWrap := s.openWrap.filter fun entry => !p entry.1 }
      { w with openWrap := w.openWrap.filter fun entry => !p entry.1 } :=
    ⟨hfilter fun key => !p key, h.kept, h.flag⟩
  exact hopen.finishAll _

theorem Follows.offer (h : Follows s w) (event : ExplorerEvent) (k : WrapLaneKey)
    (f : RenderEpisode → RenderEpisode) : Follows { s with openWrap := alter k f s.openWrap }
      { w with openWrap := alter k (Watched.offer event f) w.openWrap } where
  lanes := by
    dsimp only
    rw [h.lanes]
    exact alter_mapItems (f := Watched.episode) (g := Watched.offer event f) (fun _ => rfl) k _
  kept := h.kept
  flag := h.flag

theorem Follows.apply {s : LaneState} {w : Watch} (h : Follows s w) (event : ExplorerEvent)
    (m : LaneMove) : Follows (s.apply event m) (w.apply event m) := by
  cases m with
  | closeSource => exact h.closeWhere fun key => key.source = event.source
  | closeLane =>
    exact h.closeWhere fun key => key = wrapLaneKey event.source (envelopeOf event)
  | finish e => exact h.finish ⟨e, []⟩
  | start e =>
    refine ⟨?_, h.kept, h.flag⟩
    rw [apply_start]
    dsimp only [Watch.apply]
    rw [h.lanes]
    exact put_mapItems Watched.episode _ _ ⟨e, []⟩ _
  | attach => exact h.offer event _ _
  | attachCause signature => exact h.offer event _ _

theorem Follows.moves {s : LaneState} {w : Watch} (h : Follows s w) (event : ExplorerEvent)
    (moves : List LaneMove) :
    Follows (moves.foldl (LaneState.apply event) s) (moves.foldl (Watch.apply event) w) := by
  induction moves generalizing s w with
  | nil => exact h
  | cons m moves ih => exact ih (h.apply event m)

theorem Follows.step {s : LaneState} {w : Watch} (h : Follows s w) (event : ExplorerEvent) :
    Alike Follows (s.step event) (w.step event) := by
  have hlane : s.laneOf event = (w.laneOf event).map Watched.episode := by
    unfold LaneState.laneOf
    rw [h.lanes]
    exact get_mapItems _ _ _
  unfold LaneState.step Watch.step
  rw [hlane]
  exact Alike.bind_same fun moves _ => h.moves event moves

def Watched.Fair (o : Watched) : Prop := o.episode.complete = o.refused.isEmpty

variable {o : Watched}

theorem Watched.Fair.attach (h : o.Fair) (event : ExplorerEvent) (env : ExceptionEnvelope) :
    (o.offer event (Exceptions.attach event env)).Fair := by
  unfold Watched.Fair Watched.offer Exceptions.attach
  dsimp only
  split
  · simp
  · exact h

def Watch.all (w : Watch) : List Watched := w.finished ++ w.openWrap.map Prod.snd

variable {events : List ExplorerEvent}

section

variable {os : List Watched}

end

/-! ## Reported occurrences -/

variable {k : Nat}

variable {n : Nat}

end ContextDesk.LogAnalysis.Exceptions
