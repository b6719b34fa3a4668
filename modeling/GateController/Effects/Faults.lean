import Mathlib.Tactic.Common

/-!
# Statements that may fail

A block of statements over a state, any of which may fail.  Which ones do is
read off a schedule: every statement takes one entry, and a statement for which
there is none succeeds.  Code between statements raises on its own account.

`restoring` undoes what a block has written if the block raises, as a rollback
does, and `savepoint` does so and goes on.  `Ensures` is what a block comes to
under every schedule, and has one rule for each way to build a block.
-/

namespace Effects

/-- A block of statements. -/
def Stmt (σ ε α : Type) : Type := List Bool → σ → Except ε α × List Bool × σ

namespace Stmt

variable {σ ε α β : Type}

instance : Monad (Stmt σ ε) where
  pure a := fun faults s => (.ok a, faults, s)
  bind m f := fun faults s =>
    match m faults s with
    | (.ok a, faults', s') => f a faults' s'
    | (.error x, faults', s') => (.error x, faults', s')

theorem bind_run (m : Stmt σ ε α) (f : α → Stmt σ ε β) (faults : List Bool) (s : σ) :
    (m >>= f) faults s = match m faults s with
      | (.ok a, faults', s') => f a faults' s'
      | (.error x, faults', s') => (.error x, faults', s') := rfl

/-- An outcome that the code has come to without a statement. -/
def ofExcept (r : Except ε α) : Stmt σ ε α := fun faults s => (r, faults, s)

/-- One statement.  If it fails, it raises `x` and does nothing. -/
def statement (x : ε) (f : σ → α × σ) : Stmt σ ε α := fun faults s =>
  if faults.headD false then (.error x, faults.tail, s)
  else (.ok (f s).1, faults.tail, (f s).2)

/-- Hand the outcome over as a value, a raise included. -/
def attempt (m : Stmt σ ε α) : Stmt σ ε (Except ε α) := fun faults s =>
  (.ok (m faults s).1, (m faults s).2)

/-- Undo what was written if the block raises. -/
def restoring (m : Stmt σ ε α) : Stmt σ ε α := fun faults s =>
  match m faults s with
  | (.ok a, faults', s') => (.ok a, faults', s')
  | (.error x, faults', _) => (.error x, faults', s)

/-- A statement that changes nothing, such as `BEGIN` or `COMMIT`. -/
def marker (x : ε) : Stmt σ ε Unit := statement x fun s => ((), s)

/-- A block between `SAVEPOINT` and `RELEASE`, with `ROLLBACK TO` if it raises. -/
def savepoint (x : ε) (m : Stmt σ ε α) : Stmt σ ε (Except ε α) := do
  marker x
  match ← (restoring m).attempt with
  | .ok a => do
      marker x
      return .ok a
  | .error y => do
      marker x
      marker x
      return .error y

/-- A block between `BEGIN IMMEDIATE` and `COMMIT`, rolled back if it raises. -/
def transaction (x : ε) (m : Stmt σ ε α) : Stmt σ ε α := restoring do
  marker x
  let a ← m
  marker x
  return a

/-! ## What a block comes to -/

/-- Under every schedule, the outcome and the state satisfy `Q`. -/
def Ensures (m : Stmt σ ε α) (s : σ) (Q : Except ε α → σ → Prop) : Prop :=
  ∀ faults, Q (m faults s).1 (m faults s).2.2

namespace Ensures

variable {s : σ} {m : Stmt σ ε α} {Q R : Except ε α → σ → Prop}

theorem mono (h : m.Ensures s R) (hQ : ∀ r s', R r s' → Q r s') : m.Ensures s Q :=
  fun faults => hQ _ _ (h faults)

theorem pure {a : α} (h : Q (.ok a) s) : (Pure.pure a : Stmt σ ε α).Ensures s Q := fun _ => h

theorem ofExcept {r : Except ε α} (h : Q r s) : (Stmt.ofExcept r).Ensures s Q := fun _ => h

theorem statement {x : ε} {f : σ → α × σ} (fails : Q (.error x) s)
    (ok : Q (.ok (f s).1) (f s).2) : (Stmt.statement x f).Ensures s Q := by
  intro faults
  unfold Stmt.statement
  split
  next => exact fails
  next => exact ok

/-- The rule of sequencing.  A raise of the first block ends the whole. -/
theorem bind {f : α → Stmt σ ε β} {Q : Except ε β → σ → Prop} (h : m.Ensures s R)
    (ok : ∀ a s', R (.ok a) s' → (f a).Ensures s' Q)
    (error : ∀ x s', R (.error x) s' → Q (.error x) s') : (m >>= f).Ensures s Q := by
  intro faults
  have hm := h faults
  rw [bind_run]
  generalize m faults s = o at hm ⊢
  obtain ⟨x | a, faults', s'⟩ := o
  · exact error x s' hm
  · exact ok a s' hm faults'

theorem attempt {Q : Except ε (Except ε α) → σ → Prop}
    (h : m.Ensures s fun r s' => Q (.ok r) s') : m.attempt.Ensures s Q := fun faults => h faults

/-- A statement that changes nothing, and then a block. -/
theorem marked {x : ε} (fails : Q (.error x) s) (ok : m.Ensures s Q) :
    (Stmt.marker x >>= fun _ => m).Ensures s Q := by
  refine bind (R := fun r s' => s' = s ∧ ∀ y, r = .error y → y = x) ?_ ?_ ?_
  · exact statement ⟨rfl, fun y heq => by cases heq; rfl⟩ ⟨rfl, fun y heq => by cases heq⟩
  · rintro - s' ⟨rfl, -⟩
    exact ok
  · rintro y s' ⟨rfl, heq⟩
    rw [heq y rfl]
    exact fails

theorem restoring (h : m.Ensures s R) (ok : ∀ a s', R (.ok a) s' → Q (.ok a) s')
    (error : ∀ x s', R (.error x) s' → Q (.error x) s) : (Stmt.restoring m).Ensures s Q := by
  intro faults
  have hm := h faults
  unfold Stmt.restoring
  cases hrun : m faults s with
  | mk r rest =>
      rw [hrun] at hm
      cases r with
      | error x => exact error x rest.2 hm
      | ok a => exact ok a rest.2 hm

/-- Either the block was rolled back, or it came to what it ensures. -/
theorem savepoint {x : ε} {Q : Except ε (Except ε α) → σ → Prop} (h : m.Ensures s R)
    (ok : ∀ a s', R (.ok a) s' → Q (.ok (.ok a)) s' ∧ Q (.error x) s')
    (undone : ∀ y, Q (.ok (.error y)) s) (fails : Q (.error x) s) :
    (Stmt.savepoint x m).Ensures s Q := by
  refine marked fails ?_
  refine bind (R := fun r s' => ∃ b, r = .ok b ∧ match b with
    | .ok a => R (.ok a) s'
    | .error _ => s' = s) ?_ ?_ ?_
  · exact attempt (restoring h (fun a s' ha => ⟨.ok a, rfl, ha⟩) fun y _ _ => ⟨.error y, rfl, rfl⟩)
  · rintro b s' ⟨c, heq, hc⟩
    cases heq
    cases b with
    | ok a => exact marked (ok a s' hc).2 (pure (ok a s' hc).1)
    | error y =>
        cases hc
        exact marked fails (marked fails (pure (undone y)))
  · rintro y s' ⟨b, heq, -⟩
    cases heq

/-- A transaction commits what the block came to, or leaves nothing behind. -/
theorem transaction {x : ε} (h : m.Ensures s R) (ok : ∀ a s', R (.ok a) s' → Q (.ok a) s')
    (undone : ∀ y, Q (.error y) s) : (Stmt.transaction x m).Ensures s Q := by
  refine restoring (R := fun r s' => ∀ a, r = .ok a → R (.ok a) s') ?_
    (fun a s' ha => ok a s' (ha a rfl)) fun y _ _ => undone y
  refine marked (fun _ heq => by cases heq) ?_
  refine bind h (fun a s' ha => ?_) fun _ _ _ _ heq => by cases heq
  exact marked (fun _ heq => by cases heq) (pure fun _ heq => by cases heq; exact ha)

end Ensures

/-! ## Blocks that only a failing statement can stop -/

/-- The block returns `a` in `s'`, unless one of its statements fails.  Then it raises `x`. -/
def Sure (x : ε) (m : Stmt σ ε α) (s : σ) (a : α) (s' : σ) : Prop :=
  ∀ faults, (∃ rest, m faults s = (.ok a, rest, s') ∧ (true ∈ rest → true ∈ faults)) ∨
    true ∈ faults ∧ ∃ rest s'', m faults s = (.error x, rest, s'')

namespace Sure

variable {x : ε} {s s₁ s' : σ} {m : Stmt σ ε α} {a : α}

theorem pure (a : α) (s : σ) : Sure x (Pure.pure a : Stmt σ ε α) s a s :=
  fun faults => .inl ⟨faults, rfl, id⟩

theorem ofExcept {r : Except ε α} (h : r = .ok a) : Sure x (Stmt.ofExcept r) s a s := by
  subst h
  exact fun faults => .inl ⟨faults, rfl, id⟩

theorem statement {f : σ → α × σ} (h : f s = (a, s')) : Sure x (Stmt.statement x f) s a s' := by
  intro faults
  cases faults with
  | nil =>
      refine .inl ⟨[], ?_, id⟩
      simp [Stmt.statement, h]
  | cons fails rest =>
      cases fails with
      | false =>
          refine .inl ⟨rest, ?_, List.mem_cons_of_mem false⟩
          simp [Stmt.statement, h]
      | true => exact .inr ⟨List.mem_cons_self, rest, s, by simp [Stmt.statement]⟩

theorem bind {f : α → Stmt σ ε β} {b : β} (h : Sure x m s a s₁) (hf : Sure x (f a) s₁ b s') :
    Sure x (m >>= f) s b s' := by
  intro faults
  rw [bind_run]
  obtain ⟨rest, hm, hrest⟩ | ⟨hfails, rest, s'', hm⟩ := h faults
  · rw [hm]
    obtain ⟨rest', hf', hrest'⟩ | ⟨hfails, rest', s'', hf'⟩ := hf rest
    · exact .inl ⟨rest', hf', fun hmem => hrest (hrest' hmem)⟩
    · exact .inr ⟨hrest hfails, rest', s'', hf'⟩
  · rw [hm]
    exact .inr ⟨hfails, rest, s'', rfl⟩

theorem transaction (h : Sure x m s a s') : Sure x (Stmt.transaction x m) s a s' := by
  have hmarker : ∀ t : σ, Sure x (Stmt.marker x : Stmt σ ε Unit) t () t := fun t => statement rfl
  have hbody : Sure x (do
      marker x
      let a ← m
      marker x
      return a) s a s' :=
    (hmarker s).bind (h.bind ((hmarker s').bind (pure a s')))
  intro faults
  obtain ⟨rest, hrun, hrest⟩ | ⟨hfails, rest, s'', hrun⟩ := hbody faults
  · refine .inl ⟨rest, ?_, hrest⟩
    rw [Stmt.transaction, restoring, hrun]
  · refine .inr ⟨hfails, rest, s, ?_⟩
    rw [Stmt.transaction, restoring, hrun]

end Sure

end Stmt

end Effects
