import GateController.Effects.Expand

/-!
# What is seen of a program

A program may do more than another one that it otherwise agrees with.  A `View` says what is seen
of its operations: nothing, or an operation of the other program with its answer read in some
way.  `Erases` holds of two programs if the second one is what is seen of the first: whatever the
unseen operations answer, the first one goes on to do what the second one does.

Then what is seen of a trace of the first program is a trace of the second one, with the same
outcome (`Erases.yields`).
-/

namespace Effects

variable {E E' : Type} {Ans : E → Type} {Ans' : E' → Type} {ε α β γ δ : Type}

/-- An operation that is seen, and how its answer is read. -/
structure Seen (Ans : E → Type) (ε A : Type) where
  e : E
  read : Except ε A → Except ε (Ans e)

/-- What is seen of the operations `E'`, as long as they are answered in a certain way. -/
structure View (E' : Type) (Ans' : E' → Type) (E : Type) (Ans : E → Type) (ε : Type) where
  expect : (e : E') → Except ε (Ans' e) → Prop
  see : (e : E') → Option (Seen Ans ε (Ans' e))

/-- The second program is what is seen of the first, with `f` of its result. -/
def Erases (V : View E' Ans' E Ans ε) (f : α → β) : Prog E' Ans' ε α → Prog E Ans ε β → Prop
  | .ret a, q => q = .ret (f a)
  | .raise x, q => q = .raise x
  | .call e k, q =>
      match V.see e with
      | none => ∀ r, V.expect e r → Erases V f (k r) q
      | some s => ∃ k', q = .call s.e k' ∧ ∀ r, V.expect e r → Erases V f (k r) (k' (s.read r))

/-- What is seen of a trace. -/
def View.seen (V : View E' Ans' E Ans ε) :
    List (Σ e, Except ε (Ans' e)) → List (Σ e, Except ε (Ans e))
  | [] => []
  | ⟨e, r⟩ :: t =>
      match V.see e with
      | none => V.seen t
      | some s => ⟨s.e, s.read r⟩ :: V.seen t

namespace Erases

variable {V : View E' Ans' E Ans ε} {f : α → β} {g : γ → δ}

theorem ret (a : α) : Erases V f (.ret a) (.ret (f a)) := rfl

theorem raise (x : ε) : Erases V f (.raise x) (.raise x) := rfl

/-- An operation that is not seen. -/
theorem unseen {e : E'} {k : Except ε (Ans' e) → Prog E' Ans' ε α} {q : Prog E Ans ε β}
    (hsee : V.see e = none) (h : ∀ r, V.expect e r → Erases V f (k r) q) :
    Erases V f (.call e k) q := by
  rw [Erases, hsee]
  exact h

/-- An operation that is seen. -/
theorem seen {e : E'} {s : Seen Ans ε (Ans' e)} {k : Except ε (Ans' e) → Prog E' Ans' ε α}
    {k' : Except ε (Ans s.e) → Prog E Ans ε β} (hsee : V.see e = some s)
    (h : ∀ r, V.expect e r → Erases V f (k r) (k' (s.read r))) :
    Erases V f (.call e k) (.call s.e k') := by
  rw [Erases, hsee]
  exact ⟨k', rfl, h⟩

/-- Sequencing. -/
theorem bind {p : Prog E' Ans' ε α} {q : Prog E Ans ε β} {p' : α → Prog E' Ans' ε γ}
    {q' : β → Prog E Ans ε δ} (h : Erases V f p q) (h' : ∀ a, Erases V g (p' a) (q' (f a))) :
    Erases V g (p >>= p') (q >>= q') := by
  induction p generalizing q with
  | ret a =>
      cases (show q = .ret (f a) from h)
      exact h' a
  | raise x =>
      cases (show q = .raise x from h)
      exact rfl
  | call e k ih =>
      rw [Erases] at h
      rw [Prog.call_bind, Erases]
      cases hsee : V.see e with
      | none =>
          rw [hsee] at h
          exact fun r hr => ih r (h r hr)
      | some s =>
          rw [hsee] at h
          obtain ⟨k', rfl, h⟩ := h
          exact ⟨fun r => k' r >>= q', rfl, fun r hr => ih r (h r hr)⟩

/-- A handled program. -/
theorem attempt {p : Prog E' Ans' ε α} {q : Prog E Ans ε β} (h : Erases V f p q) :
    Erases V (Except.map f) p.attempt q.attempt := by
  induction p generalizing q with
  | ret a =>
      cases (show q = .ret (f a) from h)
      exact rfl
  | raise x =>
      cases (show q = .raise x from h)
      exact rfl
  | call e k ih =>
      rw [Erases] at h
      rw [Prog.attempt, Erases]
      cases hsee : V.see e with
      | none =>
          rw [hsee] at h
          exact fun r hr => ih r (h r hr)
      | some s =>
          rw [hsee] at h
          obtain ⟨k', rfl, h⟩ := h
          exact ⟨fun r => (k' r).attempt, rfl, fun r hr => ih r (h r hr)⟩

/-- A program whose operations are carried out, each in a way of which only the operation is
seen. -/
theorem expand {T : Type} {impl : Impl E Ans E' Ans' ε T}
    (himpl : ∀ t e, Erases V id (impl.program t e) (Prog.perform e)) (p : Prog E Ans ε β) (t : T) :
    Erases V id (p.expand impl t) p := by
  induction p generalizing t with
  | ret a => exact rfl
  | raise x => exact rfl
  | call e k ih =>
      have hcall : (Prog.perform e).attempt >>= k = .call e k := by
        refine congrArg (Prog.call e) (funext fun r => ?_)
        cases r <;> rfl
      rw [Prog.expand, ← hcall]
      refine (himpl t e).attempt.bind fun r => ?_
      cases r with
      | ok a => exact ih (.ok a) _
      | error x => exact ih (.error x) _

/-- What is seen of a trace is a trace of what is seen. -/
theorem yields {p : Prog E' Ans' ε α} {q : Prog E Ans ε β} (h : Erases V f p q)
    {t : List (Σ e, Except ε (Ans' e))} {r : Except ε α} (ht : p.Yields t r)
    (hexpect : ∀ o ∈ t, V.expect o.1 o.2) : q.Yields (V.seen t) (r.map f) := by
  induction ht generalizing q with
  | ret a =>
      cases (show q = .ret (f a) from h)
      exact .ret _
  | raise x =>
      cases (show q = .raise x from h)
      exact .raise _
  | call e k a _ ih =>
      have ha := hexpect ⟨e, a⟩ List.mem_cons_self
      have hrest := fun q h => @ih q h fun o ho => hexpect o (List.mem_cons_of_mem _ ho)
      rw [Erases] at h
      rw [View.seen]
      cases hsee : V.see e with
      | none =>
          rw [hsee] at h
          exact hrest q (h a ha)
      | some s =>
          rw [hsee] at h
          obtain ⟨k', rfl, h⟩ := h
          exact .call _ _ _ (hrest _ (h a ha))

end Erases

end Effects
