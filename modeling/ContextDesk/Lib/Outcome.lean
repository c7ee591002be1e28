import Mathlib

/-!
# Fallible computations

An `Outcome` is a value or the text of the error. `ensure` and `require` are the two ways a
computation refuses its input; the `_ok` lemmas read a successful `do` block back as the chain
of facts it checked, so that a caller inverts it with one `simp only`. `atomically` runs a
computation on a state and keeps the old state when the computation fails.
-/

namespace ContextDesk.Lib

/-- A value, or the text of the error. -/
abbrev Outcome (α : Type) := Except String α

/-- Refuse with `message` unless `c` holds. -/
def ensure (c : Prop) [Decidable c] (message : String) : Outcome Unit :=
  if c then .ok () else .error message

/-- The value of an option, or refuse with `message`. -/
def require {α : Type} (o : Option α) (message : String) : Outcome α :=
  match o with
  | some a => .ok a
  | none => .error message

/-- Refuse with the text of a fault, if there is one. -/
def refuse : Option String → Outcome Unit
  | none => .ok ()
  | some fault => .error fault

/-- Check every element in order; the first refusal wins. -/
def ensureAll {α : Type} (check : α → Outcome Unit) : List α → Outcome Unit
  | [] => .ok ()
  | a :: l => do check a; ensureAll check l

/-- Convert every element in order; the first refusal wins. -/
def collect {α β : Type} (f : α → Outcome β) : List α → Outcome (List β)
  | [] => .ok []
  | a :: l => do
    let b ← f a
    let bs ← collect f l
    pure (b :: bs)

variable {α β : Type}

theorem bind_ok {x : Outcome α} {f : α → Outcome β} {b : β} :
    (x >>= f) = .ok b ↔ ∃ a, x = .ok a ∧ f a = .ok b := by
  cases x <;> simp [bind, Except.bind]

/-- A block returns when its first step does and the rest does after it. -/
theorem exists_bind_ok {x : Outcome α} {f : α → Outcome β} :
    (∃ b, (x >>= f) = .ok b) ↔ ∃ a, x = .ok a ∧ ∃ b, f a = .ok b := by
  cases x <;> simp [bind, Except.bind]

theorem exists_pure_ok {a : α} : ∃ b, (pure a : Outcome α) = .ok b := ⟨a, rfl⟩

theorem pure_ok {a b : α} : (pure a : Outcome α) = .ok b ↔ a = b := by
  simp [pure, Except.pure]

variable {u : Unit}

@[simp] theorem ensure_ok {c : Prop} [Decidable c] {message : String} :
    ensure c message = .ok u ↔ c := by
  unfold ensure
  split <;> simp_all

@[simp] theorem require_ok {o : Option α} {message : String} {a : α} :
    require o message = .ok a ↔ o = some a := by
  cases o <;> simp [require]

@[simp] theorem refuse_ok {fault : Option String} : refuse fault = .ok u ↔ fault = none := by
  cases fault <;> simp [refuse]

theorem ensureAll_ok {check : α → Outcome Unit} {l : List α} :
    ensureAll check l = .ok u ↔ ∀ a ∈ l, check a = .ok () := by
  induction l with
  | nil => simp [ensureAll]
  | cons a l ih => simp [ensureAll, bind_ok, ih, Unique.exists_iff]

theorem collect_ok {f : α → Outcome β} {l : List α} {bs : List β} :
    collect f l = .ok bs ↔ List.Forall₂ (fun a b => f a = .ok b) l bs := by
  induction l generalizing bs with
  | nil =>
    rw [List.forall₂_nil_left_iff, collect]
    exact ⟨fun h => (Except.ok.inj h).symm, fun h => h ▸ rfl⟩
  | cons a l ih =>
    simp only [collect, bind_ok, pure_ok, List.forall₂_cons_left_iff, ih]
    constructor
    · rintro ⟨b, hb, bs', hbs, rfl⟩
      exact ⟨b, bs', hb, hbs, rfl⟩
    · rintro ⟨b, bs', hb, hbs, rfl⟩
      exact ⟨b, hb, bs', hbs, rfl⟩

theorem exists_mem_right {R : α → β → Prop} {l : List α} {l' : List β} (h : List.Forall₂ R l l')
    {a : α} (ha : a ∈ l) : ∃ b ∈ l', R a b := by
  induction h with
  | nil => cases ha
  | @cons x y l l' hxy _ ih =>
    rcases List.mem_cons.mp ha with rfl | ha
    · exact ⟨y, List.mem_cons_self, hxy⟩
    · obtain ⟨b, hb, hab⟩ := ih ha
      exact ⟨b, List.mem_cons_of_mem _ hb, hab⟩

theorem exists_mem_left {R : α → β → Prop} {l : List α} {l' : List β} (h : List.Forall₂ R l l')
    {b : β} (hb : b ∈ l') : ∃ a ∈ l, R a b :=
  exists_mem_right h.flip hb

variable {σ : Type}

/-- A call that returned a value returned it with some state. -/
theorem exists_state_of_fst {call : Outcome α × σ} {a : α} (h : call.1 = .ok a) :
    ∃ s, call = (.ok a, s) :=
  ⟨call.2, Prod.ext h rfl⟩

/-- Run `body`; a failing body leaves the state as it was. -/
def atomically {σ α : Type} (body : σ → Outcome (α × σ)) (s : σ) : Outcome α × σ :=
  match body s with
  | .ok (a, s') => (.ok a, s')
  | .error e => (.error e, s)

theorem atomically_cases (body : σ → Outcome (α × σ)) (s : σ) :
    (∃ a s', body s = .ok (a, s') ∧ atomically body s = (.ok a, s')) ∨
      ∃ e, body s = .error e ∧ atomically body s = (.error e, s) := by
  unfold atomically
  cases h : body s with
  | ok r => exact .inl ⟨r.1, r.2, rfl, rfl⟩
  | error e => exact .inr ⟨e, rfl, rfl⟩

theorem atomically_ok {body : σ → Outcome (α × σ)} {s s' : σ} {a : α} (h : body s = .ok (a, s')) :
    atomically body s = (.ok a, s') := by
  simp [atomically, h]

end ContextDesk.Lib
