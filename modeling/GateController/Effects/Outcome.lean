import GateController.Effects.Protocol

/-!
# What comes of a program

`Prog.Gives` says of a program what it returns, if it returns, whatever it is answered.
`Obeys.yields` reads a protocol along a complete trace: the state of the protocol after the trace,
and the outcome, stand in the postcondition of the program.
-/

namespace Effects

variable {E : Type} {Ans : E → Type} {ε α β Call S : Type}

/-! ## Results -/

/-- Whatever the program returns has the property. -/
def Prog.Gives (R : α → Prop) : Prog E Ans ε α → Prop
  | .ret a => R a
  | .raise _ => True
  | .call _ k => ∀ r, (k r).Gives R

namespace Prog.Gives

variable {R : α → Prop} {R' : β → Prop}

theorem ret {a : α} (h : R a) : (Prog.ret a : Prog E Ans ε α).Gives R := h

theorem raise {x : ε} : (Prog.raise x : Prog E Ans ε α).Gives R := trivial

theorem ofExcept {r : Except ε α} (h : ∀ a, r = .ok a → R a) :
    (Prog.ofExcept r : Prog E Ans ε α).Gives R := by
  cases r with
  | ok a => exact h a rfl
  | error x => exact raise

/-- Sequencing, with what is known of the first program. -/
theorem bind {p : Prog E Ans ε α} {f : α → Prog E Ans ε β} (hp : p.Gives R)
    (hf : ∀ a, R a → (f a).Gives R') : (p >>= f).Gives R' := by
  induction p with
  | ret a => exact hf a hp
  | raise x => exact raise
  | call e k ih => exact fun r => ih r (hp r)

theorem any (p : Prog E Ans ε α) : p.Gives fun _ => True := by
  induction p with
  | ret a => trivial
  | raise x => trivial
  | call e k ih => exact ih

/-- Sequencing, whatever the first program returns. -/
theorem after {p : Prog E Ans ε α} {f : α → Prog E Ans ε β} (hf : ∀ a, (f a).Gives R') :
    (p >>= f).Gives R' :=
  (any p).bind fun a _ => hf a

/-- A handled program. -/
theorem attempt {p : Prog E Ans ε α} (hp : p.Gives R) :
    p.attempt.Gives fun r => ∀ a, r = .ok a → R a := by
  induction p with
  | ret a =>
      intro b hb
      cases hb
      exact hp
  | raise x =>
      intro b hb
      cases hb
  | call e k ih => exact fun r => ih r (hp r)

end Prog.Gives

theorem exists_ok_of_any {α : Type} {r : Except ε α} {p : α → Bool}
    (h : r.toOption.any p = true) : ∃ a, r = .ok a ∧ p a = true := by
  cases r with
  | error x => cases h
  | ok a => exact ⟨a, rfl, h⟩

/-! ## A protocol along a trace -/

namespace Protocol

variable (P : Protocol E Ans ε Call S)

/-- The state of the protocol after a trace. -/
def follow : S → List (Σ e, Except ε (Ans e)) → S
  | s, [] => s
  | s, o :: t => follow (P.next s o.1 o.2) t

/-- The answers of a trace are expected ones. -/
def Expected : S → List (Σ e, Except ε (Ans e)) → Prop
  | _, [] => True
  | s, o :: t => P.expect s o.1 o.2 ∧ Expected (P.next s o.1 o.2) t

/-! ### Answers that a protocol expects -/

section Answers

variable (answer : S → (e : E) → Except ε (Ans e))

/-- What a program does that is given these answers, by the state of the protocol. -/
def trace : S → Prog E Ans ε α → List (Σ e, Except ε (Ans e))
  | _, .ret _ => []
  | _, .raise _ => []
  | s, .call e k => ⟨e, answer s e⟩ :: trace (P.next s e (answer s e)) (k (answer s e))

/-- What comes of it. -/
def outcome : S → Prog E Ans ε α → Except ε α
  | _, .ret a => .ok a
  | _, .raise x => .error x
  | s, .call e k => outcome (P.next s e (answer s e)) (k (answer s e))

theorem yields_trace (s : S) (p : Prog E Ans ε α) :
    p.Yields (P.trace answer s p) (P.outcome answer s p) := by
  induction p generalizing s with
  | ret a => exact .ret a
  | raise x => exact .raise x
  | call e k ih => exact .call e k _ (ih _ _)

theorem expected_trace (h : ∀ s e, P.expect s e (answer s e)) (s : S) (p : Prog E Ans ε α) :
    P.Expected s (P.trace answer s p) := by
  induction p generalizing s with
  | ret a => trivial
  | raise x => trivial
  | call e k ih => exact ⟨h s e, ih _ _⟩

end Answers

end Protocol

/-- What a program obeys, along one of its traces. -/
theorem Obeys.yields {P : Protocol E Ans ε Call S} {Q : S → Except ε α → Prop}
    {p : Prog E Ans ε α} {s : S} {t : List (Σ e, Except ε (Ans e))} {r : Except ε α}
    (h : Obeys P Q s p) (ht : p.Yields t r) (hexpect : P.Expected s t) :
    Q (P.follow s t) r := by
  induction ht generalizing s with
  | ret a => exact h
  | raise x => exact h
  | call e k a _ ih => exact ih (h.2 a hexpect.1) hexpect.2

end Effects
