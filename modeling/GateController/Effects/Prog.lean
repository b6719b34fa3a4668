import Mathlib.Tactic.Common

/-!
# Programs over an effect signature

A program is a tree of operations.  `E` is the type of operations, `Ans e` what
the outside answers to `e`, and `ε` the exceptions.  An operation may raise
instead of answering, so a continuation takes an `Except`.  The tree is well
founded: a program performs finitely many operations on every path, and a loop
is a recursive definition that returns one.

Programs are a monad, so a source function with calls, early returns and
exception handlers is written as a `do` block in its own order.  `attempt` is
the one handler.  It turns a raise into a value, and `try`/`except`/`finally`
are matches on that value.
-/

namespace Effects

/-- A program with result `α` over operations `E`. -/
inductive Prog (E : Type) (Ans : E → Type) (ε α : Type) : Type where
  | ret (a : α)
  | raise (x : ε)
  | call (e : E) (k : Except ε (Ans e) → Prog E Ans ε α)

namespace Prog

variable {E : Type} {Ans : E → Type} {ε α β : Type}

/-- Sequencing.  A raise skips the rest. -/
def bind : Prog E Ans ε α → (α → Prog E Ans ε β) → Prog E Ans ε β
  | .ret a, f => f a
  | .raise x, _ => .raise x
  | .call e k, f => .call e fun r => (k r).bind f

instance : Monad (Prog E Ans ε) where
  pure := .ret
  bind := Prog.bind

/-- The program that only returns or only raises. -/
def ofExcept : Except ε α → Prog E Ans ε α
  | .ok a => .ret a
  | .error x => .raise x

/-- One operation, with its answer as the result. -/
def perform (e : E) : Prog E Ans ε (Ans e) := .call e ofExcept

/-- Run a program and hand its outcome over as a value, a raise included. -/
def attempt : Prog E Ans ε α → Prog E Ans ε (Except ε α)
  | .ret a => .ret (.ok a)
  | .raise x => .ret (.error x)
  | .call e k => .call e fun r => (k r).attempt

/-- Run `cleanup` after `p` on either outcome, then hand the outcome on. -/
def finally_ (p : Prog E Ans ε α) (cleanup : Prog E Ans ε Unit) : Prog E Ans ε α :=
  p.attempt >>= fun r => cleanup >>= fun _ => ofExcept r

/-- Given these answers in this order, the program comes to this outcome. -/
inductive Yields : Prog E Ans ε α → List (Σ e, Except ε (Ans e)) → Except ε α → Prop where
  | ret (a : α) : Yields (.ret a) [] (.ok a)
  | raise (x : ε) : Yields (.raise x) [] (.error x)
  | call (e : E) (k : Except ε (Ans e) → Prog E Ans ε α) (a : Except ε (Ans e))
      {t : List (Σ e, Except ε (Ans e))} {r : Except ε α} :
      Yields (k a) t r → Yields (.call e k) (⟨e, a⟩ :: t) r

theorem yields_ret_iff {a : α} {t : List (Σ e, Except ε (Ans e))} {r : Except ε α} :
    (Prog.ret a : Prog E Ans ε α).Yields t r ↔ t = [] ∧ r = .ok a := by
  constructor
  · intro h
    cases h
    exact ⟨rfl, rfl⟩
  · rintro ⟨rfl, rfl⟩
    exact .ret a

@[simp] theorem pure_eq (a : α) : (pure a : Prog E Ans ε α) = .ret a := rfl

@[simp] theorem ret_bind (a : α) (f : α → Prog E Ans ε β) : Prog.ret a >>= f = f a := rfl

@[simp] theorem raise_bind (x : ε) (f : α → Prog E Ans ε β) :
    Prog.raise x >>= f = .raise x := rfl

@[simp] theorem call_bind (e : E) (k : Except ε (Ans e) → Prog E Ans ε α)
    (f : α → Prog E Ans ε β) : Prog.call e k >>= f = .call e fun r => k r >>= f := rfl

end Prog

end Effects
