import ContextDesk.Lib.Outcome

/-!
# Publication by replacement

A value is checked, written beside the old one and put in its place in one step. A fault before
that step keeps the old value; a fault after it is reported although the new value is in place.
`publishing` is a computation that ends in a publication, and `publishing_cases` says everything
that one can do.
-/

namespace ContextDesk.Lib

variable {α δ : Type}

/-- The faults of one publication: before the replacement, and after it. -/
structure PublishFaults where
  before : Option String
  after : Option String
  deriving DecidableEq

/-- The outcome, and the value in place. -/
def publish (check : δ → Outcome Unit) (faults : PublishFaults) (new : δ) (old : Option δ) :
    Outcome Unit × Option δ :=
  match check new, faults.before with
  | .error e, _ => (.error e, old)
  | .ok _, some e => (.error e, old)
  | .ok _, none => (refuse faults.after, some new)

/-- Compute a result and a new value, and publish the value. -/
def publishing (check : δ → Outcome Unit) (faults : PublishFaults) (old : Option δ)
    (body : Outcome (α × δ)) : Outcome α × Option δ :=
  match body with
  | .error e => (.error e, old)
  | .ok (a, new) =>
    match publish check faults new old with
    | (.ok _, current) => (.ok a, current)
    | (.error e, current) => (.error e, current)

/-- A call keeps the old value and reports a fault, or puts a checked value in its place; then it
returns, unless something fails after the replacement. -/
theorem publishing_cases (check : δ → Outcome Unit) (faults : PublishFaults) (old : Option δ)
    (body : Outcome (α × δ)) :
    (∃ e, publishing check faults old body = (.error e, old)) ∨
      ∃ a new, body = .ok (a, new) ∧ check new = .ok () ∧ faults.before = none ∧
        ((faults.after = none ∧ publishing check faults old body = (.ok a, some new)) ∨
          ∃ e, faults.after = some e ∧ publishing check faults old body = (.error e, some new)) := by
  unfold publishing publish
  rcases body with e | ⟨a, new⟩
  · exact .inl ⟨e, rfl⟩
  · cases hcheck : check new with
    | error e => exact .inl ⟨e, by simp [hcheck]⟩
    | ok u =>
      cases hb : faults.before with
      | some e => exact .inl ⟨e, by simp [hcheck]⟩
      | none =>
        refine .inr ⟨a, new, rfl, hcheck, rfl, ?_⟩
        cases ha : faults.after with
        | none => exact .inl ⟨rfl, by simp [hcheck, refuse]⟩
        | some e => exact .inr ⟨e, rfl, by simp [hcheck, refuse]⟩

/-- Without faults a checked value is published. -/
theorem publishing_ok {check : δ → Outcome Unit} {faults : PublishFaults} (old : Option δ)
    {body : Outcome (α × δ)} {a : α} {new : δ} (hbody : body = .ok (a, new))
    (hcheck : check new = .ok ()) (hb : faults.before = none) (ha : faults.after = none) :
    publishing check faults old body = (.ok a, some new) := by
  simp [publishing, publish, hbody, hcheck, hb, ha, refuse]

end ContextDesk.Lib

/-!
## Stores with one step of undo

An `UndoStore` holds the current snapshot, at most one earlier snapshot, and a revision that
every successful operation advances. `replace` publishes a snapshot and forgets the earlier one,
`publish` keeps the snapshot it supersedes, `undo` returns to the kept snapshot and forgets it.
`Holds P` says that `P` is true of both snapshots; each operation keeps it when the snapshot it
brings in satisfies `P`.
-/

namespace ContextDesk.Lib

structure UndoStore (σ : Type) where
  revision : Nat
  current : σ
  previous : Option σ

namespace UndoStore

variable {σ : Type}

def replace (s : UndoStore σ) (x : σ) : UndoStore σ :=
  { revision := s.revision + 1, current := x, previous := none }

def publish (s : UndoStore σ) (x : σ) : UndoStore σ :=
  { revision := s.revision + 1, current := x, previous := some s.current }

def undo (s : UndoStore σ) : Option (UndoStore σ) :=
  s.previous.map fun p => { revision := s.revision + 1, current := p, previous := none }

/-- `P` is true of the current snapshot and of the one `undo` would bring back. -/
def Holds (P : σ → Prop) (s : UndoStore σ) : Prop :=
  P s.current ∧ ∀ p, s.previous = some p → P p

theorem Holds.replace {P : σ → Prop} {x : σ} (s : UndoStore σ) (hx : P x) :
    Holds P (s.replace x) :=
  ⟨hx, fun _ h => by cases h⟩

theorem Holds.publish {P : σ → Prop} {s : UndoStore σ} {x : σ} (h : Holds P s) (hx : P x) :
    Holds P (s.publish x) := by
  refine ⟨hx, fun p hp => ?_⟩
  cases hp
  exact h.1

theorem Holds.undo {P : σ → Prop} {s s' : UndoStore σ} (h : Holds P s) (hs : s.undo = some s') :
    Holds P s' := by
  obtain ⟨p, hp, rfl⟩ := Option.map_eq_some_iff.mp hs
  exact ⟨h.2 p hp, fun _ h => by cases h⟩

/-- Undoing a publication returns to the snapshot it superseded. -/
theorem undo_publish (s : UndoStore σ) (x : σ) :
    (s.publish x).undo =
      some { revision := s.revision + 2, current := s.current, previous := none } := rfl

end UndoStore

end ContextDesk.Lib
