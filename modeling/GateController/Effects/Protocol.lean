import GateController.Effects.Prog

/-!
# Protocols and the programs that obey them

A protocol watches one call from outside.  It keeps a state `S` that starts
from the call's arguments and moves with each operation and its answer.  `allow`
says which operations the call may perform next, and `expect` what the answers
may be.  A program obeys a protocol with the postcondition `Q` if every path
through it performs only allowed operations, as long as the answers are
expected ones, and ends in a protocol state and an outcome related by `Q`.

`Obeys` is a weakest precondition.  The rules below are equivalences, so the
obligations of a program come out by rewriting along its `do` block.  A source
function is checked against a protocol once, and what the whole system does is
then derived from `allow`, one operation at a time (`Effects.System`).
-/

namespace Effects

/-- What is watched of a call that performs operations `E`. -/
structure Protocol (E : Type) (Ans : E → Type) (ε Call S : Type) where
  /-- The state in which a call begins. -/
  start : Call → S
  /-- The state after an operation and its outcome. -/
  next : S → (e : E) → Except ε (Ans e) → S
  /-- The operations a call may perform. -/
  allow : S → E → Prop
  /-- The outcomes the surroundings may give. -/
  expect : S → (e : E) → Except ε (Ans e) → Prop

variable {E : Type} {Ans : E → Type} {ε Call S α β : Type}

/-- Every path of the program keeps to the protocol and ends in `Q`. -/
def Obeys (P : Protocol E Ans ε Call S) (Q : S → Except ε α → Prop) : S → Prog E Ans ε α → Prop
  | s, .ret a => Q s (.ok a)
  | s, .raise x => Q s (.error x)
  | s, .call e k => P.allow s e ∧ ∀ r, P.expect s e r → Obeys P Q (P.next s e r) (k r)

namespace Obeys

variable {P : Protocol E Ans ε Call S} {Q Q' : S → Except ε α → Prop} {s : S}

@[simp] theorem ret_iff {a : α} : Obeys P Q s (.ret a) ↔ Q s (.ok a) := Iff.rfl

@[simp] theorem raise_iff {x : ε} : Obeys P Q s (.raise x) ↔ Q s (.error x) := Iff.rfl

theorem call_iff {e : E} {k : Except ε (Ans e) → Prog E Ans ε α} :
    Obeys P Q s (.call e k) ↔
      P.allow s e ∧ ∀ r, P.expect s e r → Obeys P Q (P.next s e r) (k r) := Iff.rfl

@[simp] theorem ofExcept_iff {r : Except ε α} : Obeys P Q s (Prog.ofExcept r) ↔ Q s r := by
  cases r <;> exact Iff.rfl

theorem perform_iff {e : E} {Q : S → Except ε (Ans e) → Prop} :
    Obeys P Q s (Prog.perform e) ↔
      P.allow s e ∧ ∀ r, P.expect s e r → Q (P.next s e r) r := by
  simp only [Prog.perform, call_iff, ofExcept_iff]

/-- One operation. -/
theorem perform {e : E} {Q : S → Except ε (Ans e) → Prop} (hallow : P.allow s e)
    (h : ∀ r, P.expect s e r → Q (P.next s e r) r) : Obeys P Q s (Prog.perform e) :=
  perform_iff.2 ⟨hallow, h⟩

/-- A weaker postcondition. -/
theorem mono {p : Prog E Ans ε α} (h : Obeys P Q s p) (hQ : ∀ s r, Q s r → Q' s r) :
    Obeys P Q' s p := by
  induction p generalizing s with
  | ret a => exact hQ _ _ h
  | raise x => exact hQ _ _ h
  | call e k ih => exact ⟨h.1, fun r hr => ih r (h.2 r hr)⟩

/-- The rule of sequencing.  The first program has to establish what the second
one needs, and its raises end the whole. -/
theorem bind_iff {p : Prog E Ans ε α} {f : α → Prog E Ans ε β} {Q : S → Except ε β → Prop} :
    Obeys P Q s (p >>= f) ↔
      Obeys P (fun s r => match r with
        | .ok a => Obeys P Q s (f a)
        | .error x => Q s (.error x)) s p := by
  induction p generalizing s with
  | ret a => exact Iff.rfl
  | raise x => exact Iff.rfl
  | call e k ih =>
      simp only [Prog.call_bind, call_iff]
      exact and_congr_right fun _ => forall_congr' fun r => imp_congr_right fun _ => ih r

theorem bind {p : Prog E Ans ε α} {f : α → Prog E Ans ε β} {Q : S → Except ε β → Prop}
    {R : S → Except ε α → Prop} (hp : Obeys P R s p)
    (ok : ∀ s a, R s (.ok a) → Obeys P Q s (f a))
    (error : ∀ s x, R s (.error x) → Q s (.error x)) : Obeys P Q s (p >>= f) := by
  refine bind_iff.2 (hp.mono fun s r hr => ?_)
  cases r with
  | ok a => exact ok s a hr
  | error x => exact error s x hr

@[simp] theorem attempt_iff {p : Prog E Ans ε α} {Q : S → Except ε (Except ε α) → Prop} :
    Obeys P Q s p.attempt ↔ Obeys P (fun s r => Q s (.ok r)) s p := by
  induction p generalizing s with
  | ret a => exact Iff.rfl
  | raise x => exact Iff.rfl
  | call e k ih =>
      exact and_congr_right fun _ => forall_congr' fun r => imp_congr_right fun _ => ih r

end Obeys

/-! ## Operations a protocol does not watch -/

/-- Every operation of the program lies in `F`. -/
def Prog.Only (F : E → Prop) : Prog E Ans ε α → Prop
  | .ret _ => True
  | .raise _ => True
  | .call e k => F e ∧ ∀ r, (k r).Only F

namespace Prog.Only

variable {F : E → Prop}

@[simp] theorem ret_iff {a : α} : (Prog.ret a : Prog E Ans ε α).Only F ↔ True := Iff.rfl

@[simp] theorem raise_iff {x : ε} : (Prog.raise x : Prog E Ans ε α).Only F ↔ True := Iff.rfl

@[simp] theorem ofExcept_iff {r : Except ε α} :
    (Prog.ofExcept r : Prog E Ans ε α).Only F ↔ True := by
  cases r <;> exact Iff.rfl

@[simp] theorem perform_iff {e : E} :
    (Prog.perform e : Prog E Ans ε (Ans e)).Only F ↔ F e := by
  simp [Prog.perform, Prog.Only]

theorem bind {p : Prog E Ans ε α} {f : α → Prog E Ans ε β} (hp : p.Only F)
    (hf : ∀ a, (f a).Only F) : (p >>= f).Only F := by
  induction p with
  | ret a => exact hf a
  | raise x => trivial
  | call e k ih => exact ⟨hp.1, fun r => ih r (hp.2 r)⟩

theorem mono {p : Prog E Ans ε α} {G : E → Prop} (hp : p.Only F) (h : ∀ e, F e → G e) :
    p.Only G := by
  induction p with
  | ret a => trivial
  | raise x => trivial
  | call e k ih => exact ⟨h e hp.1, fun r => ih r (hp.2 r)⟩

theorem attempt {p : Prog E Ans ε α} (hp : p.Only F) : p.attempt.Only F := by
  induction p with
  | ret a => trivial
  | raise x => trivial
  | call e k ih => exact ⟨hp.1, fun r => ih r (hp.2 r)⟩

end Prog.Only

/-- An operation that the protocol always allows and that never moves it. -/
def Protocol.Ignores (P : Protocol E Ans ε Call S) (s : S) (e : E) : Prop :=
  P.allow s e ∧ ∀ r, P.next s e r = s

/-- A program made of ignored operations obeys the protocol and leaves its state. -/
theorem Obeys.of_only {P : Protocol E Ans ε Call S} {s : S} {p : Prog E Ans ε α}
    {F : E → Prop} (hp : p.Only F) (hF : ∀ e, F e → P.Ignores s e) :
    Obeys P (fun s' _ => s' = s) s p := by
  induction p with
  | ret a => rfl
  | raise x => rfl
  | call e k ih =>
      obtain ⟨he, hk⟩ := hp
      obtain ⟨hallow, hnext⟩ := hF e he
      refine ⟨hallow, fun r _ => ?_⟩
      rw [hnext r]
      exact ih r (hk r)

/-! ## Operations that are never performed -/

/-- The protocol, for calls whose operations all lie in `F`. -/
def Protocol.restrict (P : Protocol E Ans ε Call S) (F : E → Prop) : Protocol E Ans ε Call S where
  start := P.start
  next := P.next
  allow s e := P.allow s e ∧ F e
  expect := P.expect

theorem Obeys.restrict {P : Protocol E Ans ε Call S} {Q : S → Except ε α → Prop} {F : E → Prop}
    {s : S} {p : Prog E Ans ε α} (h : Obeys P Q s p) (hp : p.Only F) :
    Obeys (P.restrict F) Q s p := by
  induction p generalizing s with
  | ret a => exact h
  | raise x => exact h
  | call e k ih => exact ⟨⟨h.1, hp.1⟩, fun r hr => ih r (h.2 r hr) (hp.2 r)⟩

end Effects
