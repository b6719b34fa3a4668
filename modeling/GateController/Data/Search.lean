import Mathlib.Data.List.Basic

/-!
# Searching a list for a pattern

`find` is the first position at which a pattern stands in a list, and `findFrom`
the first one that is not before a given position.  Both are described by the
positions at which the pattern stands, which are the prefixes of what is left
after a `drop`.
-/

namespace Data

variable {α : Type} [DecidableEq α]

/-- The pattern stands at a position. -/
def StandsAt (pat l : List α) (i : Nat) : Prop := pat <+: l.drop i

instance (pat l : List α) (i : Nat) : Decidable (StandsAt pat l i) :=
  inferInstanceAs (Decidable (pat <+: l.drop i))

/-- The first position of a pattern. -/
def find (pat : List α) : List α → Option Nat
  | [] => if pat = [] then some 0 else none
  | x :: l => if pat <+: x :: l then some 0 else (find pat l).map (· + 1)

/-- The first position of a pattern from `k` on. -/
def findFrom (k : Nat) (pat l : List α) : Option Nat := (find pat (l.drop k)).map (· + k)

section Stands

variable {pat l l' : List α} {i : Nat}

omit [DecidableEq α] in
theorem StandsAt.length_le (h : StandsAt pat l i) (hne : pat ≠ []) :
    i + pat.length ≤ l.length := by
  have hlen := List.IsPrefix.length_le h
  rw [List.length_drop] at hlen
  have hpos := List.length_pos_iff.2 hne
  omega

omit [DecidableEq α] in
/-- What comes after the list does not matter to a pattern that stands inside. -/
theorem standsAt_append (h : i + pat.length ≤ l.length) :
    StandsAt pat (l ++ l') i ↔ StandsAt pat l i := by
  unfold StandsAt
  rw [List.drop_append_of_le_length (by omega)]
  refine ⟨fun h' => ?_, fun h' => h'.trans (List.prefix_append _ _)⟩
  exact List.prefix_of_prefix_length_le h' (List.prefix_append _ _) (by rw [List.length_drop]; omega)

omit [DecidableEq α] in
theorem StandsAt.append (h : StandsAt pat l i) (hne : pat ≠ []) : StandsAt pat (l ++ l') i :=
  (standsAt_append (h.length_le hne)).2 h

omit [DecidableEq α] in
/-- Positions behind the first list are positions in the second. -/
theorem standsAt_append_right : StandsAt pat (l ++ l') (l.length + i) ↔ StandsAt pat l' i := by
  unfold StandsAt
  rw [List.drop_append, List.drop_eq_nil_of_le (by omega), List.nil_append, Nat.add_sub_cancel_left]

omit [DecidableEq α] in
theorem standsAt_drop {k : Nat} : StandsAt pat (l.drop k) i ↔ StandsAt pat l (k + i) := by
  unfold StandsAt
  rw [List.drop_drop]

end Stands

section Find

variable {pat l : List α} {i k : Nat}

theorem find_eq_none_iff (hne : pat ≠ []) : find pat l = none ↔ ∀ i, ¬ StandsAt pat l i := by
  induction l with
  | nil =>
      rw [find, if_neg hne]
      refine ⟨fun _ i h => ?_, fun _ => rfl⟩
      have hlen : i + pat.length ≤ 0 := h.length_le hne
      have hpos := List.length_pos_iff.2 hne
      omega
  | cons x l ih =>
      rw [find]
      split
      next h => exact ⟨fun h' => absurd h' (by simp), fun h' => absurd h (h' 0)⟩
      next h =>
        rw [Option.map_eq_none_iff, ih]
        constructor
        · intro h' i
          cases i with
          | zero => exact h
          | succ i => exact h' i
        · exact fun h' i => h' (i + 1)

theorem find_eq_some_iff (hne : pat ≠ []) :
    find pat l = some i ↔ StandsAt pat l i ∧ ∀ j < i, ¬ StandsAt pat l j := by
  induction l generalizing i with
  | nil =>
      rw [find, if_neg hne]
      refine ⟨fun h => absurd h (by simp), fun h => ?_⟩
      have hlen : i + pat.length ≤ 0 := h.1.length_le hne
      have hpos := List.length_pos_iff.2 hne
      omega
  | cons x l ih =>
      rw [find]
      split
      next h =>
        constructor
        · intro h'
          cases h'
          exact ⟨h, fun j hj => by omega⟩
        · rintro ⟨-, hfirst⟩
          cases i with
          | zero => rfl
          | succ i => exact absurd h (hfirst 0 (by omega))
      next h =>
        rw [Option.map_eq_some_iff]
        constructor
        · rintro ⟨i', hi', rfl⟩
          obtain ⟨hstands, hfirst⟩ := ih.1 hi'
          refine ⟨hstands, fun j hj => ?_⟩
          cases j with
          | zero => exact h
          | succ j => exact hfirst j (by omega)
        · rintro ⟨hstands, hfirst⟩
          cases i with
          | zero => exact absurd hstands h
          | succ i => exact ⟨i, ih.2 ⟨hstands, fun j hj => hfirst (j + 1) (by omega)⟩, rfl⟩

theorem findFrom_eq_none_iff (hne : pat ≠ []) :
    findFrom k pat l = none ↔ ∀ i, k ≤ i → ¬ StandsAt pat l i := by
  rw [findFrom, Option.map_eq_none_iff, find_eq_none_iff hne]
  constructor
  · intro h i hi
    have := h (i - k)
    rwa [standsAt_drop, Nat.add_sub_cancel' hi] at this
  · intro h i
    rw [standsAt_drop]
    exact h _ (Nat.le_add_right _ _)

theorem findFrom_eq_some_iff (hne : pat ≠ []) :
    findFrom k pat l = some i ↔ k ≤ i ∧ StandsAt pat l i ∧ ∀ j < i, k ≤ j → ¬ StandsAt pat l j := by
  rw [findFrom, Option.map_eq_some_iff]
  constructor
  · rintro ⟨i', hi', rfl⟩
    obtain ⟨hstands, hfirst⟩ := (find_eq_some_iff hne).1 hi'
    rw [standsAt_drop, Nat.add_comm] at hstands
    refine ⟨Nat.le_add_left _ _, hstands, fun j hj hk => ?_⟩
    have := hfirst (j - k) (by omega)
    rwa [standsAt_drop, Nat.add_sub_cancel' hk] at this
  · rintro ⟨hk, hstands, hfirst⟩
    refine ⟨i - k, (find_eq_some_iff hne).2 ⟨?_, fun j hj => ?_⟩, Nat.sub_add_cancel hk⟩
    · rwa [standsAt_drop, Nat.add_sub_cancel' hk]
    · rw [standsAt_drop]
      exact hfirst _ (by omega) (Nat.le_add_right _ _)

end Find

end Data
