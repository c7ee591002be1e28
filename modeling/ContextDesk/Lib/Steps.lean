import ContextDesk.Lib.Transaction

/-!
# Programs of steps that may fail

A step reads and changes the state or throws, and a fault makes it throw `failed` without touching
the state. `atomic` undoes what a program that throws has done. Three properties of a program are
closed under its composition:

* `Keeps R`: whatever happens, the states before and after are related by `R`;
* `Undoes`: a program that throws leaves the state as it was;
* `Reports`: a fault that was met is thrown.

`Made failed R` is the program itself: it is put together from steps that keep `R`. It has the first
and the last property.
-/

namespace ContextDesk.Lib.Sql

variable {δ ε α β : Type}

def step (failed : ε) (f : δ → Except ε (α × δ)) : Sql δ ε α := fun w =>
  if w.faults.headD false then (.error failed, { w with faults := w.faults.tail })
  else
    match f w.db with
    | .error e => (.error e, { w with faults := w.faults.tail })
    | .ok (a, db) => (.ok a, { db, faults := w.faults.tail })

/-- A computation that takes no step. -/
def lift (x : Except ε α) : Sql δ ε α := fun w => (x, w)

/-- The value of an option, or throw. -/
def orFail (o : Option α) (e : ε) : Sql δ ε α :=
  lift (match o with
    | some a => .ok a
    | none => .error e)

/-- Throw unless `c` holds. -/
def demand (c : Prop) [Decidable c] (e : ε) : Sql δ ε Unit := lift (if c then .ok () else .error e)

def atomic (x : Sql δ ε α) : Sql δ ε α := fun w =>
  match x w with
  | (.ok a, w') => (.ok a, w')
  | (.error e, w') => (.error e, { db := w.db, faults := w'.faults })

/-- `try` and `catch`. -/
def handle (x : Sql δ ε α) (handler : ε → Sql δ ε α) : Sql δ ε α := fun w =>
  match x w with
  | (.ok a, w') => (.ok a, w')
  | (.error e, w') => handler e w'

/-- The program without its value. -/
def void (x : Sql δ ε α) : Sql δ ε Unit := fun w =>
  match x w with
  | (.ok _, w') => (.ok (), w')
  | (.error e, w') => (.error e, w')

theorem bind_cases (x : Sql δ ε α) (f : α → Sql δ ε β) (w : Work δ) :
    (∃ a w', x w = (.ok a, w') ∧ (x >>= f) w = f a w') ∨
      ∃ e w', x w = (.error e, w') ∧ (x >>= f) w = (.error e, w') := by
  cases hx : x w with
  | mk r w' =>
    cases r with
    | ok a => exact .inl ⟨a, w', rfl, bind_of_ok hx⟩
    | error e => exact .inr ⟨e, w', rfl, bind_of_error hx⟩

/-- A value that is made of the result changes nothing. -/
theorem bind_pure_work (x : Sql δ ε α) (f : α → β) (w : Work δ) :
    ((x >>= fun a => pure (f a)) w).2 = (x w).2 := by
  rcases bind_cases x (fun a => pure (f a)) w with ⟨a, w', hx, h⟩ | ⟨e, w', hx, h⟩ <;> rw [h, hx]
  rfl

theorem step_cases (failed : ε) (f : δ → Except ε (α × δ)) (w : Work δ) :
    (w.faults.headD false = true ∧ step failed f w = (.error failed, ⟨w.db, w.faults.tail⟩)) ∨
    (w.faults.headD false = false ∧ ∃ e, f w.db = .error e ∧
      step failed f w = (.error e, ⟨w.db, w.faults.tail⟩)) ∨
    (w.faults.headD false = false ∧ ∃ a db, f w.db = .ok (a, db) ∧
      step failed f w = (.ok a, ⟨db, w.faults.tail⟩)) := by
  unfold step
  cases hhead : w.faults.headD false with
  | true => exact .inl ⟨rfl, rfl⟩
  | false =>
    cases hf : f w.db with
    | error e => exact .inr (.inl ⟨rfl, e, rfl, rfl⟩)
    | ok r => exact .inr (.inr ⟨rfl, r.1, r.2, rfl, rfl⟩)

theorem atomic_cases (x : Sql δ ε α) (w : Work δ) :
    (∃ a w', x w = (.ok a, w') ∧ atomic x w = (.ok a, w')) ∨
      ∃ e w', x w = (.error e, w') ∧ atomic x w = (.error e, ⟨w.db, w'.faults⟩) := by
  unfold atomic
  cases hx : x w with
  | mk r w' =>
    cases r with
    | ok a => exact .inl ⟨a, w', rfl, rfl⟩
    | error e => exact .inr ⟨e, w', rfl, rfl⟩

theorem handle_cases (x : Sql δ ε α) (handler : ε → Sql δ ε α) (w : Work δ) :
    (∃ a w', x w = (.ok a, w') ∧ handle x handler w = (.ok a, w')) ∨
      ∃ e w', x w = (.error e, w') ∧ handle x handler w = handler e w' := by
  unfold handle
  cases hx : x w with
  | mk r w' =>
    cases r with
    | ok a => exact .inl ⟨a, w', rfl, rfl⟩
    | error e => exact .inr ⟨e, w', rfl, rfl⟩

theorem void_cases (x : Sql δ ε α) (w : Work δ) :
    (∃ a w', x w = (.ok a, w') ∧ void x w = (.ok (), w')) ∨
      ∃ e w', x w = (.error e, w') ∧ void x w = (.error e, w') := by
  unfold void
  cases hx : x w with
  | mk r w' =>
    cases r with
    | ok a => exact .inl ⟨a, w', rfl, rfl⟩
    | error e => exact .inr ⟨e, w', rfl, rfl⟩

variable {w w' : Work δ}

theorem void_ok {x : Sql δ ε α} {u : Unit} (h : void x w = (.ok u, w')) :
    ∃ a, x w = (.ok a, w') := by
  rcases void_cases x w with ⟨a, w', hx, hw⟩ | ⟨e, w', -, hw⟩
  · rw [hw] at h
    cases h
    exact ⟨a, hx⟩
  · rw [hw] at h
    cases h

variable {c : Prop}

theorem demand_of [Decidable c] (h : c) (e : ε) (w : Work δ) : demand c e w = (.ok (), w) := by
  rw [demand, if_pos h]
  rfl

theorem demand_not [Decidable c] (h : ¬ c) (e : ε) (w : Work δ) : demand c e w = (.error e, w) := by
  rw [demand, if_neg h]
  rfl

theorem lift_ok {x : Except ε α} {a : α} : lift x w = (.ok a, w') ↔ x = .ok a ∧ w = w' := by
  simp [lift]

theorem orFail_ok {o : Option α} {e : ε} {a : α} :
    orFail o e w = (.ok a, w') ↔ o = some a ∧ w = w' := by
  cases o <;> simp [orFail, lift]

theorem demand_ok [Decidable c] {e : ε} {u : Unit} : demand c e w = (.ok u, w') ↔ c ∧ w = w' := by
  by_cases h : c <;> simp [demand, lift, h]

variable {f : δ → Except ε (α × δ)}

theorem step_ok {failed : ε} {a : α} (h : step failed f w = (.ok a, w')) :
    f w.db = .ok (a, w'.db) := by
  rcases step_cases failed f w with ⟨-, hw⟩ | ⟨-, e, -, hw⟩ | ⟨-, a, db, hf, hw⟩
  · rw [hw] at h
    cases h
  · rw [hw] at h
    cases h
  · rw [hw] at h
    cases h
    exact hf

theorem bind_assoc {γ : Type} (x : Sql δ ε α) (f : α → Sql δ ε β) (g : β → Sql δ ε γ) :
    (x >>= f) >>= g = x >>= fun a => f a >>= g := by
  funext w
  rcases bind_cases x f w with ⟨a, w', hx, h⟩ | ⟨e, w', hx, h⟩
  · rw [bind_of_ok hx]
    change (match (x >>= f) w with
      | (.ok b, w) => g b w
      | (.error e, w) => (.error e, w)) = _
    rw [h]
    rfl
  · rw [bind_of_error h, bind_of_error hx]

theorem ite_bind [Decidable c] (x y : Sql δ ε α) (f : α → Sql δ ε β) :
    (if c then x else y) >>= f = if c then x >>= f else y >>= f := by
  split <;> rfl

theorem atomic_ok {x : Sql δ ε α} {a : α} (h : atomic x w = (.ok a, w')) : x w = (.ok a, w') := by
  rcases atomic_cases x w with ⟨a, w', hx, hw⟩ | ⟨e, w', -, hw⟩
  · rw [hw] at h
    cases h
    exact hx
  · rw [hw] at h
    cases h

theorem atomic_of_error {x : Sql δ ε α} {e : ε} (h : x w = (.error e, w')) :
    atomic x w = (.error e, ⟨w.db, w'.faults⟩) := by
  unfold atomic
  rw [h]

theorem atomic_unchanged {x : Sql δ ε α} {e : ε} (h : x w = (.error e, w)) :
    atomic x w = (.error e, w) :=
  atomic_of_error h

theorem atomic_result {x : Sql δ ε α} {r : Except ε α} (h : atomic x w = (r, w')) :
    (∃ a, r = .ok a ∧ x w = (.ok a, w')) ∨ ((∃ e, r = .error e) ∧ w'.db = w.db) := by
  rcases atomic_cases x w with ⟨a, w', hx, hw⟩ | ⟨e, w', -, hw⟩
  · rw [hw] at h
    cases h
    exact .inl ⟨a, rfl, hx⟩
  · rw [hw] at h
    cases h
    exact .inr ⟨⟨e, rfl⟩, rfl⟩

theorem forSome_some (a : α) (f : α → Sql δ ε Unit) : forSome (some a) f = f a := rfl

theorem void_db (x : Sql δ ε α) (w : Work δ) : (void x w).2 = (x w).2 := by
  rcases void_cases x w with ⟨a, w', hx, h⟩ | ⟨e, w', hx, h⟩ <;> rw [hx, h]

/-! ## What a program keeps -/

def Keeps (R : δ → δ → Prop) (x : Sql δ ε α) : Prop := ∀ w, R w.db (x w).2.db

section

variable {R : δ → δ → Prop} (hrefl : ∀ s, R s s)

include hrefl

theorem keeps_pure (a : α) : Keeps R (pure a : Sql δ ε α) := fun w => hrefl w.db

theorem keeps_lift (x : Except ε α) : Keeps R (lift x : Sql δ ε α) := fun w => hrefl w.db

theorem keeps_fail (e : ε) : Keeps R (fail e : Sql δ ε α) := fun w => hrefl w.db

theorem keeps_step {failed : ε} (hf : ∀ s a s', f s = .ok (a, s') → R s s') :
    Keeps R (step failed f) := by
  intro w
  rcases step_cases failed f w with ⟨-, h⟩ | ⟨-, e, -, h⟩ | ⟨-, a, db, hfw, h⟩
  · rw [h]
    exact hrefl w.db
  · rw [h]
    exact hrefl w.db
  · rw [h]
    exact hf _ _ _ hfw

theorem keeps_atomic {x : Sql δ ε α} (hx : Keeps R x) : Keeps R (atomic x) := by
  intro w
  rcases atomic_cases x w with ⟨a, w', hw, h⟩ | ⟨e, w', -, h⟩
  · have hkept := hx w
    rw [hw] at hkept
    rwa [h]
  · rw [h]
    exact hrefl w.db

end

section

variable {R : δ → δ → Prop} (htrans : ∀ s t u, R s t → R t u → R s u)

include htrans

theorem keeps_bind {x : Sql δ ε α} {f : α → Sql δ ε β} (hx : Keeps R x) (hf : ∀ a, Keeps R (f a)) :
    Keeps R (x >>= f) := by
  intro w
  have hkept := hx w
  rcases bind_cases x f w with ⟨a, w', hw, h⟩ | ⟨e, w', hw, h⟩
  · rw [hw] at hkept
    rw [h]
    exact htrans _ _ _ hkept (hf a w')
  · rw [hw] at hkept
    rwa [h]

theorem keeps_handle {x : Sql δ ε α} {handler : ε → Sql δ ε α} (hx : Keeps R x)
    (hhandler : ∀ e, Keeps R (handler e)) : Keeps R (handle x handler) := by
  intro w
  have hkept := hx w
  rcases handle_cases x handler w with ⟨a, w', hw, h⟩ | ⟨e, w', hw, h⟩
  · rw [hw] at hkept
    rwa [h]
  · rw [hw] at hkept
    rw [h]
    exact htrans _ _ _ hkept (hhandler e w')

end

/-! ## What is undone -/

/-- The program only reads. -/
def Reads (x : Sql δ ε α) : Prop := ∀ w, (x w).2.db = w.db

def Undoes (x : Sql δ ε α) : Prop := ∀ w e w', x w = (.error e, w') → w'.db = w.db

theorem Reads.undoes {x : Sql δ ε α} (hx : Reads x) : Undoes x := by
  intro w e w' h
  have := hx w
  rwa [h] at this

theorem undoes_atomic (x : Sql δ ε α) : Undoes (atomic x) := by
  intro w e w' h
  rcases atomic_cases x w with ⟨a, w'', -, ha⟩ | ⟨e', w'', -, ha⟩
  · rw [ha] at h
    cases h
  · rw [ha] at h
    cases h
    rfl

theorem undoes_bind {x : Sql δ ε α} {f : α → Sql δ ε β} (hx : Reads x) (hf : ∀ a, Undoes (f a)) :
    Undoes (x >>= f) := by
  intro w e w' h
  have hread := hx w
  rcases bind_cases x f w with ⟨a, w'', hw, ha⟩ | ⟨e', w'', hw, ha⟩
  · rw [ha] at h
    rw [hw] at hread
    rw [hf a w'' e w' h]
    exact hread
  · rw [ha] at h
    cases h
    rwa [hw] at hread

theorem undoes_void {x : Sql δ ε α} (hx : Undoes x) : Undoes (void x) := by
  intro w e w' h
  rcases void_cases x w with ⟨a, w'', -, ha⟩ | ⟨e', w'', hw, ha⟩
  · rw [ha] at h
    cases h
  · rw [ha] at h
    cases h
    exact hx w e w' hw

theorem undoes_handle {x : Sql δ ε α} {handler : ε → Sql δ ε α} (hx : Undoes x)
    (hhandler : ∀ e, Undoes (handler e)) : Undoes (handle x handler) := by
  intro w e w' h
  rcases handle_cases x handler w with ⟨a, w'', -, ha⟩ | ⟨e', w'', hw, ha⟩
  · rw [ha] at h
    cases h
  · rw [ha] at h
    rw [hhandler e' w'' e w' h, hx w e' w'' hw]

theorem reads_lift (x : Except ε α) : Reads (lift x : Sql δ ε α) := fun _ => rfl

theorem reads_fail (e : ε) : Reads (fail e : Sql δ ε α) := fun _ => rfl

theorem reads_step {failed : ε} (hf : ∀ s a s', f s = .ok (a, s') → s' = s) :
    Reads (step failed f) := by
  intro w
  rcases step_cases failed f w with ⟨-, h⟩ | ⟨-, e, -, h⟩ | ⟨-, a, db, hfw, h⟩
  · rw [h]
  · rw [h]
  · rw [h]
    exact hf _ _ _ hfw

theorem reads_bind {x : Sql δ ε α} {f : α → Sql δ ε β} (hx : Reads x) (hf : ∀ a, Reads (f a)) :
    Reads (x >>= f) := by
  intro w
  have hread := hx w
  rcases bind_cases x f w with ⟨a, w', hw, h⟩ | ⟨e, w', hw, h⟩
  · rw [hw] at hread
    rw [h, hf a w']
    exact hread
  · rw [hw] at hread
    rwa [h]

/-! ## What is reported -/

/-- A fault that is gone was thrown. -/
def Reports (failed : ε) (x : Sql δ ε α) : Prop :=
  ∀ w, true ∈ w.faults → true ∈ (x w).2.faults ∨ (x w).1 = .error failed

variable {failed : ε}

theorem reports_pure (a : α) : Reports failed (pure a : Sql δ ε α) := fun _ h => .inl h

theorem reports_lift (x : Except ε α) : Reports failed (lift x : Sql δ ε α) := fun _ h => .inl h

theorem reports_fail (e : ε) : Reports failed (fail e : Sql δ ε α) := fun _ h => .inl h

/-- A step that is no fault leaves the other faults. -/
theorem true_mem_tail {faults : List Bool} (h : true ∈ faults) (hhead : faults.headD false = false) :
    true ∈ faults.tail := by
  cases faults with
  | nil => cases h
  | cons fault faults =>
    rcases List.mem_cons.mp h with rfl | h
    · cases hhead
    · exact h

theorem reports_step (f : δ → Except ε (α × δ)) : Reports failed (step failed f) := by
  intro w hw
  rcases step_cases failed f w with ⟨-, h⟩ | ⟨hhead, e, -, h⟩ | ⟨hhead, a, db, -, h⟩
  · rw [h]
    exact .inr rfl
  · rw [h]
    exact .inl (true_mem_tail hw hhead)
  · rw [h]
    exact .inl (true_mem_tail hw hhead)

theorem reports_bind {x : Sql δ ε α} {f : α → Sql δ ε β} (hx : Reports failed x)
    (hf : ∀ a, Reports failed (f a)) : Reports failed (x >>= f) := by
  intro w hw
  have hreports := hx w hw
  rcases bind_cases x f w with ⟨a, w', ha, h⟩ | ⟨e, w', ha, h⟩
  · rw [ha] at hreports
    rw [h]
    rcases hreports with hleft | hthrown
    · exact hf a w' hleft
    · cases hthrown
  · rw [ha] at hreports
    rw [h]
    rcases hreports with hleft | hthrown
    · exact .inl hleft
    · cases hthrown
      exact .inr rfl

theorem reports_atomic {x : Sql δ ε α} (hx : Reports failed x) : Reports failed (atomic x) := by
  intro w hw
  have hreports := hx w hw
  rcases atomic_cases x w with ⟨a, w', ha, h⟩ | ⟨e, w', ha, h⟩
  · rw [ha] at hreports
    rw [h]
    rcases hreports with hleft | hthrown
    · exact .inl hleft
    · cases hthrown
  · rw [ha] at hreports
    rw [h]
    rcases hreports with hleft | hthrown
    · exact .inl hleft
    · cases hthrown
      exact .inr rfl

/-- A handler throws a fault again. -/
theorem reports_handle {x : Sql δ ε α} {handler : ε → Sql δ ε α} (hx : Reports failed x)
    (hfailed : handler failed = fail failed) (hhandler : ∀ e, Reports failed (handler e)) :
    Reports failed (handle x handler) := by
  intro w hw
  have hreports := hx w hw
  rcases handle_cases x handler w with ⟨a, w', ha, h⟩ | ⟨e, w', ha, h⟩
  · rw [ha] at hreports
    rw [h]
    rcases hreports with hleft | hthrown
    · exact .inl hleft
    · cases hthrown
  · rw [ha] at hreports
    rw [h]
    rcases hreports with hleft | hthrown
    · exact hhandler e w' hleft
    · cases hthrown
      rw [hfailed]
      exact .inr rfl

theorem reports_void {x : Sql δ ε α} (hx : Reports failed x) : Reports failed (void x) := by
  intro w hw
  have hreports := hx w hw
  rcases void_cases x w with ⟨a, w', ha, h⟩ | ⟨e, w', ha, h⟩
  · rw [ha] at hreports
    rw [h]
    rcases hreports with hleft | hthrown
    · exact .inl hleft
    · cases hthrown
  · rw [ha] at hreports
    rw [h]
    rcases hreports with hleft | hthrown
    · exact .inl hleft
    · cases hthrown
      exact .inr rfl

/-! ## Programs of steps that keep a relation -/

inductive Made (failed : ε) (R : δ → δ → Prop) : {α : Type} → Sql δ ε α → Prop where
  | pure {α : Type} (a : α) : Made failed R (Pure.pure a : Sql δ ε α)
  | lift {α : Type} (x : Except ε α) : Made failed R (lift x)
  | fail {α : Type} (e : ε) : Made failed R (fail e : Sql δ ε α)
  | step {α : Type} {f : δ → Except ε (α × δ)} (hf : ∀ s a s', f s = .ok (a, s') → R s s') :
      Made failed R (step failed f)
  | bind {α β : Type} {x : Sql δ ε α} {f : α → Sql δ ε β} (hx : Made failed R x)
      (hf : ∀ a, Made failed R (f a)) : Made failed R (x >>= f)
  | atomic {α : Type} {x : Sql δ ε α} (hx : Made failed R x) : Made failed R (atomic x)
  | handle {α : Type} {x : Sql δ ε α} {handler : ε → Sql δ ε α} (hx : Made failed R x)
      (hfailed : handler failed = Sql.fail failed) (hhandler : ∀ e, Made failed R (handler e)) :
      Made failed R (handle x handler)

namespace Made

variable {R : δ → δ → Prop} {x : Sql δ ε α}

theorem keeps (hrefl : ∀ s, R s s) (htrans : ∀ s t u, R s t → R t u → R s u)
    (hx : Made failed R x) : Keeps R x := by
  induction hx with
  | pure a => exact keeps_pure hrefl a
  | lift x => exact keeps_lift hrefl x
  | fail e => exact keeps_fail hrefl e
  | step hf => exact keeps_step hrefl hf
  | bind _ _ hx hf => exact keeps_bind htrans hx hf
  | atomic _ hx => exact keeps_atomic hrefl hx
  | handle _ _ _ hx hhandler => exact keeps_handle htrans hx hhandler

theorem reports (hx : Made failed R x) : Reports failed x := by
  induction hx with
  | pure a => exact reports_pure a
  | lift x => exact reports_lift x
  | fail e => exact reports_fail e
  | step _ => exact reports_step _
  | bind _ _ hx hf => exact reports_bind hx hf
  | atomic _ hx => exact reports_atomic hx
  | handle _ hfailed _ hx hhandler => exact reports_handle hx hfailed hhandler

/-- No fault is left when there was none. -/
theorem faults_nil (hx : Made failed R x) {w : Work δ} (hw : w.faults = []) :
    (x w).2.faults = [] := by
  induction hx generalizing w with
  | pure a => exact hw
  | lift x => exact hw
  | fail e => exact hw
  | @step _ f hf =>
    rcases step_cases failed f w with ⟨-, h⟩ | ⟨-, e, -, h⟩ | ⟨-, a, db, -, h⟩
    · rw [h, hw]
      rfl
    · rw [h, hw]
      rfl
    · rw [h, hw]
      rfl
  | @bind _ _ x f _ _ ihx ihf =>
    have hleft := ihx hw
    rcases bind_cases x f w with ⟨a, w', ha, h⟩ | ⟨e, w', ha, h⟩
    · rw [ha] at hleft
      rw [h]
      exact ihf a hleft
    · rw [ha] at hleft
      rwa [h]
  | @atomic _ x _ ihx =>
    have hleft := ihx hw
    rcases atomic_cases x w with ⟨a, w', ha, h⟩ | ⟨e, w', ha, h⟩
    · rw [ha] at hleft
      rwa [h]
    · rw [ha] at hleft
      rwa [h]
  | @handle _ x handler _ _ _ ihx ihhandler =>
    have hleft := ihx hw
    rcases handle_cases x handler w with ⟨a, w', ha, h⟩ | ⟨e, w', ha, h⟩
    · rw [ha] at hleft
      rwa [h]
    · rw [ha] at hleft
      rw [h]
      exact ihhandler e hleft

theorem ite [Decidable c] {y : Sql δ ε α} (hx : Made failed R x) (hy : Made failed R y) :
    Made failed R (if c then x else y) := by
  split
  · exact hx
  · exact hy

theorem forSome {f : α → Sql δ ε Unit} (hf : ∀ a, Made failed R (f a)) (o : Option α) :
    Made failed R (forSome o f) := by
  cases o with
  | none => exact .pure ()
  | some a => exact hf a

end Made

/-- The faults that let the step at `position` fail, and no other. -/
def failAt (position : Nat) : List Bool := List.replicate position false ++ [true]

theorem true_mem_failAt (position : Nat) : true ∈ failAt position :=
  List.mem_append_right _ (List.mem_singleton_self true)

theorem failAt_ne_nil (position : Nat) : failAt position ≠ [] :=
  List.ne_nil_of_mem (true_mem_failAt position)

theorem step_failAt_succ (f : δ → Except ε (α × δ)) (db : δ) (position : Nat) :
    step failed f ⟨db, failAt (position + 1)⟩ =
      match f db with
      | .error e => (.error e, ⟨db, failAt position⟩)
      | .ok (a, db') => (.ok a, ⟨db', failAt position⟩) := rfl

/-- A program that meets its fault throws it. -/
theorem throws_of_reports {x : Sql δ ε α} (hx : Reports failed x) {db : δ} {position : Nat}
    (hmet : (x ⟨db, failAt position⟩).2.faults = []) :
    (x ⟨db, failAt position⟩).1 = .error failed := by
  rcases hx ⟨db, failAt position⟩ (true_mem_failAt position) with hleft | hthrown
  · rw [hmet] at hleft
    cases hleft
  · exact hthrown

end ContextDesk.Lib.Sql
