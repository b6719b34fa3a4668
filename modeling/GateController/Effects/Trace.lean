import GateController.Effects.Protocol

/-!
# Traces of a single program

`Yields` relates a program to the answers it was given and to what came of it.
The rules here take the traces of a composed program apart, and `trace` and
`outcome` go the other way: they run a program on a function that answers every
operation, so that a trace with wanted answers can be exhibited.
-/

namespace Effects

namespace Prog

variable {E : Type} {Ans : E → Type} {ε α β : Type}

/-! ## Taking traces apart -/

theorem yields_raise_iff {x : ε} {t : List (Σ e, Except ε (Ans e))} {r : Except ε α} :
    (Prog.raise x : Prog E Ans ε α).Yields t r ↔ t = [] ∧ r = .error x := by
  constructor
  · intro h
    cases h
    exact ⟨rfl, rfl⟩
  · rintro ⟨rfl, rfl⟩
    exact .raise x

/-- A trace of a sequence is one of the first program and, if that returned, one
of the second. -/
theorem Yields.bind_inv {p : Prog E Ans ε α} {f : α → Prog E Ans ε β}
    {t : List (Σ e, Except ε (Ans e))} {r : Except ε β} (h : (p >>= f).Yields t r) :
    (∃ t₁ t₂ a, p.Yields t₁ (.ok a) ∧ (f a).Yields t₂ r ∧ t = t₁ ++ t₂) ∨
      ∃ x, p.Yields t (.error x) ∧ r = .error x := by
  induction p generalizing t with
  | ret a => exact .inl ⟨[], t, a, .ret a, h, rfl⟩
  | raise x =>
      obtain ⟨rfl, rfl⟩ := yields_raise_iff.1 h
      exact .inr ⟨x, .raise x, rfl⟩
  | call e k ih =>
      cases h with
      | call _ _ a h =>
          rcases ih a h with ⟨t₁, t₂, b, h₁, h₂, rfl⟩ | ⟨x, h₁, rfl⟩
          · exact .inl ⟨⟨e, a⟩ :: t₁, t₂, b, .call e k a h₁, h₂, rfl⟩
          · exact .inr ⟨x, .call e k a h₁, rfl⟩

/-- A handled program returns its own outcome. -/
theorem Yields.attempt_inv {p : Prog E Ans ε α} {t : List (Σ e, Except ε (Ans e))}
    {r : Except ε (Except ε α)} (h : p.attempt.Yields t r) :
    ∃ r', p.Yields t r' ∧ r = .ok r' := by
  induction p generalizing t with
  | ret a =>
      obtain ⟨rfl, rfl⟩ := yields_ret_iff.1 h
      exact ⟨.ok a, .ret a, rfl⟩
  | raise x =>
      obtain ⟨rfl, rfl⟩ := yields_ret_iff.1 h
      exact ⟨.error x, .raise x, rfl⟩
  | call e k ih =>
      cases h with
      | call _ _ a h =>
          obtain ⟨r', h', rfl⟩ := ih a h
          exact ⟨r', .call e k a h', rfl⟩

/-- A trace consists of operations that the program may perform. -/
theorem Only.of_yields {F : E → Prop} {p : Prog E Ans ε α} {t : List (Σ e, Except ε (Ans e))}
    {r : Except ε α} (hp : p.Only F) (h : p.Yields t r) : ∀ o ∈ t, F o.1 := by
  induction h with
  | ret a => nofun
  | raise x => nofun
  | call e k a h ih =>
      intro o ho
      rcases List.mem_cons.1 ho with rfl | ho
      · exact hp.1
      · exact ih (hp.2 a) o ho

/-! ## Running on given answers -/

section Answers

variable (answer : (e : E) → Except ε (Ans e))

/-- What comes of a program that is given these answers. -/
def outcome : Prog E Ans ε α → Except ε α
  | .ret a => .ok a
  | .raise x => .error x
  | .call e k => outcome (k (answer e))

/-- What a program does that is given these answers. -/
def trace : Prog E Ans ε α → List (Σ e, Except ε (Ans e))
  | .ret _ => []
  | .raise _ => []
  | .call e k => ⟨e, answer e⟩ :: trace (k (answer e))

theorem yields_trace (p : Prog E Ans ε α) : p.Yields (p.trace answer) (p.outcome answer) := by
  induction p with
  | ret a => exact .ret a
  | raise x => exact .raise x
  | call e k ih => exact .call e k _ (ih _)

theorem answer_of_mem_trace (p : Prog E Ans ε α) :
    ∀ o ∈ p.trace answer, o.2 = answer o.1 := by
  induction p with
  | ret a => nofun
  | raise x => nofun
  | call e k ih =>
      intro o ho
      rcases List.mem_cons.1 ho with rfl | ho
      · rfl
      · exact ih _ o ho

@[simp] theorem outcome_ret (a : α) : (Prog.ret a : Prog E Ans ε α).outcome answer = .ok a := rfl

@[simp] theorem outcome_raise (x : ε) :
    (Prog.raise x : Prog E Ans ε α).outcome answer = .error x := rfl

@[simp] theorem outcome_ofExcept (r : Except ε α) :
    (Prog.ofExcept r : Prog E Ans ε α).outcome answer = r := by
  cases r <;> rfl

@[simp] theorem outcome_perform (e : E) :
    (Prog.perform e : Prog E Ans ε (Ans e)).outcome answer = answer e := by
  simp [perform, outcome]

@[simp] theorem trace_perform (e : E) :
    (Prog.perform e : Prog E Ans ε (Ans e)).trace answer = [⟨e, answer e⟩] := by
  simp only [perform, trace]
  cases answer e <;> rfl

/-- The outcome of a sequence whose first program returns. -/
theorem outcome_bind_ok {p : Prog E Ans ε α} {f : α → Prog E Ans ε β} {a : α}
    (h : p.outcome answer = .ok a) : (p >>= f).outcome answer = (f a).outcome answer := by
  induction p with
  | ret b => cases h; rfl
  | raise x => cases h
  | call e k ih => exact ih _ h

/-- The outcome of a sequence whose first program raises. -/
theorem outcome_bind_error {p : Prog E Ans ε α} {f : α → Prog E Ans ε β} {x : ε}
    (h : p.outcome answer = .error x) : (p >>= f).outcome answer = .error x := by
  induction p with
  | ret b => cases h
  | raise y => cases h; rfl
  | call e k ih => exact ih _ h

/-- What the second program of a sequence does is part of what the sequence does. -/
theorem mem_trace_bind {p : Prog E Ans ε α} {f : α → Prog E Ans ε β} {a : α}
    {o : Σ e, Except ε (Ans e)} (h : p.outcome answer = .ok a) (ho : o ∈ (f a).trace answer) :
    o ∈ (p >>= f).trace answer := by
  induction p with
  | ret b => cases h; exact ho
  | raise x => cases h
  | call e k ih => exact List.mem_cons_of_mem _ (ih _ h)

/-- So is what the first program does. -/
theorem mem_trace_bind_left {p : Prog E Ans ε α} {f : α → Prog E Ans ε β}
    {o : Σ e, Except ε (Ans e)} (ho : o ∈ p.trace answer) : o ∈ (p >>= f).trace answer := by
  induction p with
  | ret b => cases ho
  | raise x => cases ho
  | call e k ih =>
      rcases List.mem_cons.1 ho with rfl | ho
      · exact List.mem_cons_self
      · exact List.mem_cons_of_mem _ (ih _ ho)

/-- A handler does not change what the program does. -/
@[simp] theorem trace_attempt (p : Prog E Ans ε α) :
    p.attempt.trace answer = p.trace answer := by
  induction p with
  | ret a => rfl
  | raise x => rfl
  | call e k ih => exact congrArg _ (ih _)

end Answers

end Prog

end Effects
