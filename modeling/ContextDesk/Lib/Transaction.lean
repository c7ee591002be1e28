import ContextDesk.Lib.Outcome

/-!
# Statements and transactions

`Sql` is a run of statements against a database that may refuse any of them: a fault fails the next
statement, which then changes nothing. A `Connection` is the database as the connection sees it and,
while a transaction is open, what a rollback would restore. `transact` is a body between `BEGIN` and
`COMMIT`; `rollsBack` says whether an error of the body is answered with `ROLLBACK` or leaves the
transaction open. A rollback of an open transaction does not fail. `transact_cases` is all that a
transaction can do.
-/

namespace ContextDesk.Lib

/-- The database and the faults of the statements to come. -/
structure Work (δ : Type) where
  db : δ
  faults : List Bool

/-- Whether a statement is refused, counted from the next one. -/
def faultAt (faults : List Bool) (n : Nat) : Bool := faults.getD n false

theorem faultAt_tail (faults : List Bool) (n : Nat) :
    faultAt faults.tail n = faultAt faults (n + 1) := by
  cases faults <;> rfl

theorem headD_eq_faultAt (faults : List Bool) : faults.headD false = faultAt faults 0 := by
  cases faults <;> rfl

def Sql (δ ε α : Type) := Work δ → Except ε α × Work δ

namespace Sql

variable {δ ε α β : Type}

instance instMonad : Monad (Sql δ ε) where
  pure a := fun w => (.ok a, w)
  bind x f := fun w =>
    match x w with
    | (.ok a, w) => f a w
    | (.error e, w) => (.error e, w)

def fail (e : ε) : Sql δ ε α := fun w => (.error e, w)

/-- One statement, refused by a fault or by a constraint. -/
def statement (refused : ε) (f : δ → Option (α × δ)) : Sql δ ε α := fun w =>
  if w.faults.headD false then (.error refused, { w with faults := w.faults.tail })
  else
    match f w.db with
    | none => (.error refused, { w with faults := w.faults.tail })
    | some (a, db) => (.ok a, { db, faults := w.faults.tail })

def execute (refused : ε) (f : δ → δ) : Sql δ ε Unit :=
  statement refused fun db => some ((), f db)

def query (refused : ε) (f : δ → α) : Sql δ ε α := statement refused fun db => some (f db, db)

/-- A statement whose error is dropped. -/
def ignore (x : Sql δ ε α) : Sql δ ε Unit := fun w => (.ok (), (x w).2)

/-- Something to do for a value that may be missing. -/
def forSome (o : Option α) (f : α → Sql δ ε Unit) : Sql δ ε Unit :=
  match o with
  | none => pure ()
  | some a => f a

variable {w : Work δ}

theorem bind_ok {x : Sql δ ε α} {f : α → Sql δ ε β} {w'' : Work δ} {b : β} :
    (x >>= f) w = (.ok b, w'') ↔ ∃ a w', x w = (.ok a, w') ∧ f a w' = (.ok b, w'') := by
  change (match x w with
    | (.ok a, w) => f a w
    | (.error e, w) => (.error e, w)) = _ ↔ _
  cases hx : x w with
  | mk r w' =>
    cases r with
    | error e => simp
    | ok a =>
      simp only [Prod.mk.injEq, Except.ok.injEq]
      constructor
      · exact fun h => ⟨a, w', ⟨rfl, rfl⟩, h⟩
      · rintro ⟨_, _, ⟨rfl, rfl⟩, h⟩
        exact h

variable {w' : Work δ}

theorem bind_of_ok {x : Sql δ ε α} {f : α → Sql δ ε β} {a : α} (h : x w = (.ok a, w')) :
    (x >>= f) w = f a w' := by
  change (match x w with
    | (.ok a, w) => f a w
    | (.error e, w) => (.error e, w)) = _
  rw [h]

theorem bind_of_error {x : Sql δ ε α} {f : α → Sql δ ε β} {e : ε} (h : x w = (.error e, w')) :
    (x >>= f) w = (.error e, w') := by
  change (match x w with
    | (.ok a, w) => f a w
    | (.error e, w) => (.error e, w)) = _
  rw [h]

theorem pure_ok {a b : α} : (pure a : Sql δ ε α) w = (.ok b, w') ↔ a = b ∧ w = w' := by
  change ((Except.ok a : Except ε α), w) = _ ↔ _
  simp

theorem fail_ok {e : ε} {a : α} : ¬ (fail e : Sql δ ε α) w = (.ok a, w') := by
  simp [fail]

variable {refused : ε}

theorem statement_ok {f : δ → Option (α × δ)} {a : α} (h : statement refused f w = (.ok a, w')) :
    f w.db = some (a, w'.db) := by
  unfold statement at h
  split at h
  · simp at h
  · cases hf : f w.db with
    | none => simp [hf] at h
    | some r =>
      simp only [hf, Prod.mk.injEq, Except.ok.injEq] at h
      obtain ⟨rfl, rfl⟩ := h
      rfl

theorem statement_error {f : δ → Option (α × δ)} {e : ε}
    (h : statement refused f w = (.error e, w')) : w'.db = w.db := by
  unfold statement at h
  split at h
  · cases h
    rfl
  · cases hf : f w.db with
    | none =>
      rw [hf] at h
      cases h
      rfl
    | some r =>
      rw [hf] at h
      cases h

theorem execute_ok {f : δ → δ} {a : Unit} (h : execute refused f w = (.ok a, w')) :
    w'.db = f w.db := by
  have := statement_ok h
  simp only [Option.some.injEq, Prod.mk.injEq] at this
  exact this.2.symm

theorem statement_fault {f : δ → Option (α × δ)} (h : faultAt w.faults 0 = true) :
    statement refused f w = (.error refused, ⟨w.db, w.faults.tail⟩) := by
  unfold statement
  rw [headD_eq_faultAt, if_pos h]

theorem execute_pass {f : δ → δ} (h : faultAt w.faults 0 = false) :
    execute refused f w = (.ok (), ⟨f w.db, w.faults.tail⟩) := by
  unfold execute statement
  rw [headD_eq_faultAt, h]
  rfl

theorem query_pass {f : δ → α} (h : faultAt w.faults 0 = false) :
    query refused f w = (.ok (f w.db), ⟨w.db, w.faults.tail⟩) := by
  unfold query statement
  rw [headD_eq_faultAt, h]
  rfl

theorem ignore_execute (refused : ε) (f : δ → δ) (w : Work δ) :
    ∃ db, ignore (execute refused f) w = (.ok (), ⟨db, w.faults.tail⟩) ∧
      (db = w.db ∨ db = f w.db) := by
  unfold ignore
  cases h : faultAt w.faults 0 with
  | true => exact ⟨w.db, by rw [execute, statement_fault h], Or.inl rfl⟩
  | false => exact ⟨f w.db, by rw [execute_pass h], Or.inr rfl⟩

theorem query_ok {f : δ → α} {a : α} (h : query refused f w = (.ok a, w')) :
    a = f w.db ∧ w'.db = w.db := by
  have := statement_ok h
  simp only [Option.some.injEq, Prod.mk.injEq] at this
  exact ⟨this.1.symm, this.2.symm⟩

end Sql

/-! ## Transactions -/

structure Connection (δ : Type) where
  db : δ
  /-- What `ROLLBACK` restores, while a transaction is open. -/
  begun : Option δ

variable {δ ε α : Type}

/-- A body between `BEGIN` and `COMMIT`, with the faults that are left after it. -/
def transact (refused : ε) (rollsBack commitFails : Bool) (conn : Connection δ)
    (faults : List Bool) (body : Sql δ ε α) : Except ε α × Connection δ × List Bool :=
  if faults.headD false || conn.begun.isSome then (.error refused, conn, faults.tail)
  else
    match body ⟨conn.db, faults.tail⟩ with
    | (.error e, w) => (.error e, if rollsBack then conn else ⟨w.db, some conn.db⟩, w.faults)
    | (.ok a, w) =>
      if commitFails then (.error refused, ⟨w.db, some conn.db⟩, w.faults)
      else (.ok a, ⟨w.db, none⟩, w.faults)

/-- A transaction changes nothing, or its body ran through, or it stays open half done. -/
theorem transact_cases (refused : ε) (rollsBack commitFails : Bool) (conn : Connection δ)
    (faults : List Bool) (body : Sql δ ε α) :
    (∃ e left, transact refused rollsBack commitFails conn faults body = (.error e, conn, left)) ∨
    (conn.begun = none ∧ ∃ a w, body ⟨conn.db, faults.tail⟩ = (.ok a, w) ∧
      transact refused rollsBack commitFails conn faults body =
        if commitFails then (.error refused, ⟨w.db, some conn.db⟩, w.faults)
        else (.ok a, ⟨w.db, none⟩, w.faults)) ∨
    (rollsBack = false ∧ conn.begun = none ∧ ∃ e w, body ⟨conn.db, faults.tail⟩ = (.error e, w) ∧
      transact refused rollsBack commitFails conn faults body =
        (.error e, ⟨w.db, some conn.db⟩, w.faults)) := by
  unfold transact
  by_cases hbegin : (faults.headD false || conn.begun.isSome) = true
  · rw [if_pos hbegin]
    exact Or.inl ⟨refused, faults.tail, rfl⟩
  rw [if_neg hbegin]
  have hnone : conn.begun = none := by
    rw [Bool.or_eq_true, not_or, Bool.not_eq_true, Bool.not_eq_true, Option.isSome_eq_false_iff,
      Option.isNone_iff_eq_none] at hbegin
    exact hbegin.2
  cases hbody : body ⟨conn.db, faults.tail⟩ with
  | mk r w =>
    cases r with
    | ok a => exact Or.inr (Or.inl ⟨hnone, a, w, rfl, rfl⟩)
    | error e =>
      cases rollsBack with
      | true => exact Or.inl ⟨e, w.faults, rfl⟩
      | false => exact Or.inr (Or.inr ⟨rfl, hnone, e, w, rfl, rfl⟩)

end ContextDesk.Lib
