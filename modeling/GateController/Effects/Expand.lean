import GateController.Effects.Protocol

/-!
# Operations that are programs

What one program performs as a single operation may itself be a program, over other operations.
`Prog.expand` puts that program in the place of each operation.  The program may depend on a
memory of the operations before it, which is all that `impl` gets to see of the rest.

A program that obeys a protocol obeys another one after the expansion, if every operation does so
from the states in question.
-/

namespace Effects

variable {E E' T Call Call' S S' : Type} {Ans : E → Type} {Ans' : E' → Type} {ε α : Type}

/-- A program for every operation, and what is remembered of it. -/
structure Impl (E : Type) (Ans : E → Type) (E' : Type) (Ans' : E' → Type) (ε T : Type) where
  program : T → (e : E) → Prog E' Ans' ε (Ans e)
  remember : T → (e : E) → Except ε (Ans e) → T

/-- The program with its operations carried out. -/
def Prog.expand (impl : Impl E Ans E' Ans' ε T) : T → Prog E Ans ε α → Prog E' Ans' ε α
  | _, .ret a => .ret a
  | _, .raise x => .raise x
  | t, .call e k =>
      (impl.program t e).attempt >>= fun r => (k r).expand impl (impl.remember t e r)

/-- One protocol for the operations, one for what they are made of, and the states in which both
stand while none of them is under way. -/
structure Refines (P : Protocol E Ans ε Call S) (P' : Protocol E' Ans' ε Call' S')
    (impl : Impl E Ans E' Ans' ε T) (R : T → S → S' → Prop) : Prop where
  obeys : ∀ t s s' e, R t s s' → P.allow s e →
    Obeys P' (fun s'' r => P.expect s e r ∧ R (impl.remember t e r) (P.next s e r) s'') s'
      (impl.program t e)

/-- The rule of expansion. -/
theorem Obeys.expand {P : Protocol E Ans ε Call S} {P' : Protocol E' Ans' ε Call' S'}
    {impl : Impl E Ans E' Ans' ε T} {R : T → S → S' → Prop} (href : Refines P P' impl R)
    {p : Prog E Ans ε α} {Q : S → Except ε α → Prop} {t : T} {s : S} {s' : S'}
    (h : Obeys P Q s p) (hR : R t s s') :
    Obeys P' (fun s'' r => ∃ t' s, R t' s s'' ∧ Q s r) s' (p.expand impl t) := by
  induction p generalizing t s s' with
  | ret a => exact ⟨t, s, hR, h⟩
  | raise x => exact ⟨t, s, hR, h⟩
  | call e k ih =>
      obtain ⟨hallow, hk⟩ := h
      rw [Prog.expand, Obeys.bind_iff, Obeys.attempt_iff]
      refine (href.obeys t s s' e hR hallow).mono fun s'' r hr => ?_
      exact ih r (hk r hr.1) hr.2

end Effects
