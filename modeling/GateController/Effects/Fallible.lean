import Mathlib.Algebra.Ring.Nat
import Mathlib.Data.List.Basic
import Mathlib.Tactic.Common

/-!
# Calls that have names and may fail

A computation over a state, whose calls to the outside have names.  Which of them fail is
a predicate on the names.  A call that fails raises and does nothing.  Code between calls
raises on its own account.

A computation may be run inside a larger state, and its calls may be given other names,
so that a function that is called twice fails once.
-/

namespace Effects

/-- A computation with named calls. -/
def Fallible (L σ ε α : Type) : Type := (L → Bool) → σ → Except ε α × σ

namespace Fallible

variable {L M σ τ ε ε' α β : Type}

instance : Monad (Fallible L σ ε) where
  pure a := fun _ s => (.ok a, s)
  bind m f := fun fails s =>
    match m fails s with
    | (.ok a, s') => f a fails s'
    | (.error x, s') => (.error x, s')

/-- An outcome that the code has come to without a call. -/
def ofExcept (r : Except ε α) : Fallible L σ ε α := fun _ s => (r, s)

/-- The code raises. -/
def raise (x : ε) : Fallible L σ ε α := ofExcept (.error x)

/-- The state. -/
def get : Fallible L σ ε σ := fun _ s => (.ok s, s)

/-- Change the state. -/
def modify (f : σ → σ) : Fallible L σ ε Unit := fun _ s => (.ok (), f s)

/-- A call.  If it fails, it raises `x` and leaves the state as `failed` says. -/
def callOr (l : L) (x : ε) (failed f : σ → σ) : Fallible L σ ε Unit := fun fails s =>
  if fails l then (.error x, failed s) else (.ok (), f s)

/-- A call that does nothing when it fails. -/
def call (l : L) (x : ε) (f : σ → σ) : Fallible L σ ε Unit := callOr l x id f

/-- Hand the outcome over as a value, a raise included. -/
def attempt (m : Fallible L σ ε α) : Fallible L σ ε' (Except ε α) := fun fails s =>
  (.ok (m fails s).1, (m fails s).2)

/-- Run `cleanup` after `m` on either outcome, then hand the outcome on. -/
def finally_ (m : Fallible L σ ε α) (cleanup : Fallible L σ ε Unit) : Fallible L σ ε α := do
  let r ← m.attempt
  cleanup
  ofExcept r

/-- Another exception in place of the one raised. -/
def mapError (f : ε → ε') (m : Fallible L σ ε α) : Fallible L σ ε' α := fun fails s =>
  ((m fails s).1.mapError f, (m fails s).2)

/-- Run inside a larger state. -/
def zoom (view : σ → τ) (put : τ → σ → σ) (m : Fallible L τ ε α) : Fallible L σ ε α :=
  fun fails s => ((m fails (view s)).1, put (m fails (view s)).2 s)

/-- Give the calls other names. -/
def named (f : L → M) (m : Fallible L σ ε α) : Fallible M σ ε α := fun fails =>
  m fun l => fails (f l)

/-- One call fails at most. -/
def single [DecidableEq L] (failing : Option L) : L → Bool := fun l => decide (failing = some l)

/-! ## Running -/

section Run

variable {fails : L → Bool} {s s' : σ}

@[simp] theorem pure_run (a : α) :
    (Pure.pure a : Fallible L σ ε α) fails s = (.ok a, s) := rfl

@[simp] theorem ofExcept_run (r : Except ε α) :
    (ofExcept r : Fallible L σ ε α) fails s = (r, s) := rfl

@[simp] theorem raise_run (x : ε) : (raise x : Fallible L σ ε α) fails s = (.error x, s) := rfl

@[simp] theorem get_run : (get : Fallible L σ ε σ) fails s = (.ok s, s) := rfl

@[simp] theorem modify_run (f : σ → σ) :
    (modify f : Fallible L σ ε Unit) fails s = (.ok (), f s) := rfl

@[simp] theorem attempt_run (m : Fallible L σ ε α) :
    (m.attempt : Fallible L σ ε' _) fails s = (.ok (m fails s).1, (m fails s).2) := rfl

@[simp] theorem mapError_run (f : ε → ε') (m : Fallible L σ ε α) :
    m.mapError f fails s = ((m fails s).1.mapError f, (m fails s).2) := rfl

@[simp] theorem zoom_run (view : σ → τ) (put : τ → σ → σ) (m : Fallible L τ ε α) :
    m.zoom view put fails s = ((m fails (view s)).1, put (m fails (view s)).2 s) := rfl

@[simp] theorem named_run {fails : M → Bool} (f : L → M) (m : Fallible L σ ε α) :
    m.named f fails s = m (fun l => fails (f l)) s := rfl

theorem callOr_of_not {l : L} {x : ε} {failed f : σ → σ} (h : fails l = false) :
    callOr l x failed f fails s = (.ok (), f s) := by
  simp [callOr, h]

theorem callOr_of_fails {l : L} {x : ε} {failed f : σ → σ} (h : fails l = true) :
    callOr l x failed f fails s = (.error x, failed s) := by
  simp [callOr, h]

theorem call_of_not {l : L} {x : ε} {f : σ → σ} (h : fails l = false) :
    call l x f fails s = (.ok (), f s) := callOr_of_not h

theorem call_of_fails {l : L} {x : ε} {f : σ → σ} (h : fails l = true) :
    call l x f fails s = (.error x, s) := callOr_of_fails h

theorem bind_of_ok {m : Fallible L σ ε α} {f : α → Fallible L σ ε β} {a : α}
    (h : m fails s = (.ok a, s')) : (m >>= f) fails s = f a fails s' := by
  change (match m fails s with
    | (.ok a, s') => f a fails s'
    | (.error x, s') => (.error x, s')) = _
  rw [h]

theorem bind_of_error {m : Fallible L σ ε α} {f : α → Fallible L σ ε β} {x : ε}
    (h : m fails s = (.error x, s')) : (m >>= f) fails s = (.error x, s') := by
  change (match m fails s with
    | (.ok a, s') => f a fails s'
    | (.error x, s') => (.error x, s')) = _
  rw [h]

/-- What is done in the end does not change the outcome. -/
theorem finally_of_ok {m : Fallible L σ ε α} {cleanup : Fallible L σ ε Unit} {r : Except ε α}
    {s₁ : σ} (hm : m fails s = (r, s₁)) (h : cleanup fails s₁ = (.ok (), s')) :
    m.finally_ cleanup fails s = (r, s') := by
  have hattempt : (m.attempt : Fallible L σ ε _) fails s = (.ok r, s₁) := by
    rw [attempt_run, hm]
  rw [finally_, bind_of_ok hattempt, bind_of_ok h, ofExcept_run]

/-- What is done in the end raises over the outcome. -/
theorem finally_of_error {m : Fallible L σ ε α} {cleanup : Fallible L σ ε Unit} {r : Except ε α}
    {s₁ : σ} {x : ε} (hm : m fails s = (r, s₁)) (h : cleanup fails s₁ = (.error x, s')) :
    m.finally_ cleanup fails s = (.error x, s') := by
  have hattempt : (m.attempt : Fallible L σ ε _) fails s = (.ok r, s₁) := by
    rw [attempt_run, hm]
  rw [finally_, bind_of_ok hattempt, bind_of_error h]

theorem single_eq_true [DecidableEq L] {failing : Option L} {l : L} :
    single failing l = true ↔ failing = some l := by
  simp [single]

theorem single_eq_false [DecidableEq L] {failing : Option L} {l : L} :
    single failing l = false ↔ failing ≠ some l := by
  simp [single]

@[simp] theorem single_none [DecidableEq L] (l : L) : single none l = false := rfl

@[simp] theorem single_some [DecidableEq L] (k l : L) : single (some k) l = decide (k = l) := by
  simp [single]

end Run

/-- A sequence returns what its second part returns. -/
theorem bind_eq_ok_iff {fails : L → Bool} {s s' : σ} {m : Fallible L σ ε α}
    {f : α → Fallible L σ ε β} {b : β} :
    (m >>= f) fails s = (.ok b, s') ↔
      ∃ a s₁, m fails s = (.ok a, s₁) ∧ f a fails s₁ = (.ok b, s') := by
  cases hm : m fails s with
  | mk r s₁ =>
      cases r with
      | error x =>
          rw [bind_of_error hm]
          constructor
          · intro h
            cases h
          · rintro ⟨a, s₂, h, -⟩
            cases h
      | ok a =>
          rw [bind_of_ok hm]
          constructor
          · intro h
            exact ⟨a, s₁, rfl, h⟩
          · rintro ⟨a', s₂, heq, h⟩
            cases heq
            exact h

/-- Both parts have returned. -/
theorem finally_eq_ok {fails : L → Bool} {s s' : σ} {m : Fallible L σ ε α}
    {cleanup : Fallible L σ ε Unit} {a : α} (h : m.finally_ cleanup fails s = (.ok a, s')) :
    ∃ s₁, m fails s = (.ok a, s₁) ∧ cleanup fails s₁ = (.ok (), s') := by
  cases hm : m fails s with
  | mk r s₁ =>
      cases hcleanup : cleanup fails s₁ with
      | mk r' s₂ =>
          cases r' with
          | error x =>
              rw [finally_of_error hm hcleanup] at h
              cases h
          | ok u =>
              rw [finally_of_ok hm hcleanup] at h
              cases h
              exact ⟨s₁, rfl, hcleanup⟩

/-! ## Looking without touching -/

/-- Whatever fails, the state is left as it was. -/
def Still (m : Fallible L σ ε α) : Prop := ∀ fails s, (m fails s).2 = s

namespace Still

theorem pure (a : α) : Still (Pure.pure a : Fallible L σ ε α) := fun _ _ => rfl

theorem ofExcept (r : Except ε α) : Still (Fallible.ofExcept r : Fallible L σ ε α) := fun _ _ => rfl

theorem get : Still (Fallible.get : Fallible L σ ε σ) := fun _ _ => rfl

theorem bind {m : Fallible L σ ε α} {f : α → Fallible L σ ε β} (hm : m.Still)
    (hf : ∀ a, (f a).Still) : (m >>= f).Still := by
  intro fails s
  have hs := hm fails s
  cases hrun : m fails s with
  | mk r s₁ =>
      rw [hrun] at hs
      cases hs
      cases r with
      | error x => rw [bind_of_error hrun]
      | ok a =>
          rw [bind_of_ok hrun]
          exact hf a fails s₁

/-- A run that leaves the state. -/
theorem run {m : Fallible L σ ε α} (h : m.Still) (fails : L → Bool) (s : σ) :
    m fails s = ((m fails s).1, s) := Prod.ext rfl (h fails s)

end Still

/-! ## Leaving a part alone -/

/-- Whatever fails, a part of the state is left as it was. -/
def Keeps {γ : Type} (view : σ → γ) (m : Fallible L σ ε α) : Prop :=
  ∀ fails s, view (m fails s).2 = view s

namespace Keeps

variable {γ : Type} {view : σ → γ}

theorem pure (a : α) : Keeps view (Pure.pure a : Fallible L σ ε α) := fun _ _ => rfl

theorem ofExcept (r : Except ε α) : Keeps view (Fallible.ofExcept r : Fallible L σ ε α) :=
  fun _ _ => rfl

theorem call {l : L} {x : ε} {f : σ → σ} (h : ∀ s, view (f s) = view s) :
    Keeps view (Fallible.call l x f : Fallible L σ ε Unit) := by
  intro fails s
  cases hfails : fails l with
  | true => rw [call_of_fails hfails]
  | false =>
      rw [call_of_not hfails]
      exact h s

theorem attempt {m : Fallible L σ ε α} (h : Keeps view m) :
    Keeps view (m.attempt : Fallible L σ ε' (Except ε α)) := fun fails s => h fails s

theorem bind {m : Fallible L σ ε α} {f : α → Fallible L σ ε β} (hm : Keeps view m)
    (hf : ∀ a, Keeps view (f a)) : Keeps view (m >>= f) := by
  intro fails s
  have hs := hm fails s
  cases hrun : m fails s with
  | mk r s₁ =>
      rw [hrun] at hs
      cases r with
      | error x =>
          rw [bind_of_error hrun]
          exact hs
      | ok a =>
          rw [bind_of_ok hrun]
          exact (hf a fails s₁).trans hs

theorem finally_ {m : Fallible L σ ε α} {cleanup : Fallible L σ ε Unit} (hm : Keeps view m)
    (hcleanup : Keeps view cleanup) : Keeps view (m.finally_ cleanup) :=
  hm.attempt.bind fun r => hcleanup.bind fun _ => ofExcept r

end Keeps

/-! ## Writing in parts -/

/-- Write `rest` in parts.  The part that the `i`-th call takes has `chunk i + 1` bytes, or
what is left. -/
def writeAll (name : Nat → L) (x : ε) (chunk : Nat → Nat) (append : List UInt8 → σ → σ)
    (i : Nat) (rest : List UInt8) : Fallible L σ ε Unit :=
  if rest = [] then pure ()
  else do
    call (name i) x (append (rest.take (chunk i + 1)))
    writeAll name x chunk append (i + 1) (rest.drop (chunk i + 1))
termination_by rest.length
decreasing_by
  have hpos := List.length_pos_iff.2 ‹rest ≠ []›
  rw [List.length_drop]
  omega

/-- All is written, whatever the parts, or one of the calls has failed. -/
theorem writeAll_cases {name : Nat → L} {x : ε} {chunk : Nat → Nat}
    {append : List UInt8 → σ → σ} (hnil : ∀ s, append [] s = s)
    (happend : ∀ a b s, append b (append a s) = append (a ++ b) s) (fails : L → Bool)
    (i : Nat) (rest : List UInt8) (s : σ) :
    writeAll name x chunk append i rest fails s = (.ok (), append rest s) ∨
      ∃ j written, fails (name j) = true ∧
        writeAll name x chunk append i rest fails s = (.error x, append written s) := by
  induction i, rest using writeAll.induct chunk generalizing s with
  | case1 i =>
      rw [writeAll, if_pos rfl, hnil]
      exact .inl rfl
  | case2 i rest hne ih =>
      rw [writeAll, if_neg hne]
      cases hfails : fails (name i) with
      | true =>
          rw [bind_of_error (call_of_fails hfails)]
          exact .inr ⟨i, [], hfails, by rw [hnil]⟩
      | false =>
          rw [bind_of_ok (call_of_not hfails)]
          obtain h | ⟨j, written, hj, h⟩ := ih (append (rest.take (chunk i + 1)) s)
          · rw [h, happend, List.take_append_drop]
            exact .inl rfl
          · rw [h, happend]
            exact .inr ⟨j, _, hj, rfl⟩

theorem Keeps.writeAll {γ : Type} {view : σ → γ} {name : Nat → L} {x : ε} {chunk : Nat → Nat}
    {append : List UInt8 → σ → σ} (h : ∀ part s, view (append part s) = view s) (i : Nat)
    (rest : List UInt8) : Keeps view (writeAll name x chunk append i rest) := by
  induction i, rest using writeAll.induct chunk with
  | case1 i =>
      rw [Fallible.writeAll, if_pos rfl]
      exact Keeps.pure ()
  | case2 i rest hne ih =>
      rw [Fallible.writeAll, if_neg hne]
      exact (Keeps.call (h _)).bind fun _ => ih

/-- The `j`-th call is made, unless one before it fails: the parts before it leave some of
`rest`, of which the first part is the `i`-th. -/
def Due (chunk : Nat → Nat) (i : Nat) (rest : List UInt8) (j : Nat) : Prop :=
  i ≤ j ∧ ((List.range' i (j - i)).map fun n => chunk n + 1).sum < rest.length

theorem due_self_iff {chunk : Nat → Nat} {i : Nat} {rest : List UInt8} :
    Due chunk i rest i ↔ rest ≠ [] := by
  rw [Due, Nat.sub_self, List.range'_zero, List.map_nil, List.sum_nil, List.length_pos_iff]
  exact and_iff_right (Nat.le_refl i)

/-- The call after the first part. -/
theorem due_of_lt {chunk : Nat → Nat} {i j : Nat} {rest : List UInt8} (h : i < j) :
    Due chunk i rest j ↔ Due chunk (i + 1) (rest.drop (chunk i + 1)) j := by
  obtain ⟨n, rfl⟩ := Nat.exists_eq_add_of_lt h
  rw [Due, Due, show i + n + 1 - i = n + 1 by omega, show i + n + 1 - (i + 1) = n by omega,
    List.range'_succ, List.map_cons, List.sum_cons, List.length_drop]
  omega

/-- All is written exactly if none of the calls fails that are due. -/
theorem writeAll_ok_iff {name : Nat → L} {x : ε} {chunk : Nat → Nat}
    {append : List UInt8 → σ → σ} {fails : L → Bool} {i : Nat} {rest : List UInt8} {s : σ} :
    (writeAll name x chunk append i rest fails s).1 = .ok () ↔
      ∀ j, Due chunk i rest j → fails (name j) = false := by
  induction i, rest using writeAll.induct chunk generalizing s with
  | case1 i =>
      rw [writeAll, if_pos rfl]
      exact ⟨fun _ j hj => absurd hj.2 (Nat.not_lt_zero _), fun _ => rfl⟩
  | case2 i rest hne ih =>
      rw [writeAll, if_neg hne]
      cases hfails : fails (name i) with
      | true =>
          rw [bind_of_error (call_of_fails hfails)]
          refine ⟨fun h => (by cases h), fun h => ?_⟩
          rw [h i (due_self_iff.2 hne)] at hfails
          cases hfails
      | false =>
          rw [bind_of_ok (call_of_not hfails), ih]
          constructor
          · intro h j hj
            obtain rfl | hlt := Nat.eq_or_lt_of_le hj.1
            · exact hfails
            · exact h j ((due_of_lt hlt).1 hj)
          · intro h j hj
            exact h j ((due_of_lt hj.1).2 hj)

end Fallible

end Effects
