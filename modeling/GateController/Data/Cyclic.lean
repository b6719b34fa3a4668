import Mathlib.Data.List.Sort
import Mathlib.Order.Defs.LinearOrder

/-!
# Rounds through an ordered set

A set is visited in rounds.  A round begins after a position, takes the values
above it in order and goes on with the others.  Where there is no position yet,
the round is the set in its order.

A visit that is broken off goes on where it stopped: what was left of the round
comes first in the round that begins after the last value visited, whatever has
been taken out of the part that was visited (`isPrefix_round`).
-/

namespace Data.Cyclic

variable {α : Type} [LinearOrder α]

/-- The value lies above the position. -/
def After : Option α → α → Prop
  | none, _ => True
  | some a, x => a < x

instance (c : Option α) (x : α) : Decidable (After c x) := by
  cases c with
  | none => exact instDecidableTrue
  | some a => exact inferInstanceAs (Decidable (a < x))

/-- In a round that begins after the position, the first value comes first. -/
def Before (c : Option α) (x y : α) : Prop :=
  (After c x ∧ ¬ After c y) ∨ ((After c x ↔ After c y) ∧ x < y)

/-- A round through a list that is in order. -/
def round (c : Option α) (l : List α) : List α :=
  l.filter (fun x => decide (After c x)) ++ l.filter fun x => decide (¬ After c x)

/-- The last value that was visited, or else the position before. -/
def position (c : Option α) (visited : List α) : Option α := visited.getLast?.or c

omit [LinearOrder α] in
@[simp] theorem position_nil (c : Option α) : position c [] = c := rfl

omit [LinearOrder α] in
@[simp] theorem position_append (c : Option α) (visited : List α) (a : α) :
    position c (visited ++ [a]) = some a := by simp [position]

theorem Before.asymm {c : Option α} {x y : α} (h : Before c x y) : ¬ Before c y x := by
  unfold Before at *
  grind

theorem mem_round {c : Option α} {l : List α} {x : α} : x ∈ round c l ↔ x ∈ l := by
  simp only [round, List.mem_append, List.mem_filter, decide_eq_true_eq]
  grind

theorem perm_round (c : Option α) (l : List α) : (round c l).Perm l := by
  have h := List.filter_append_perm (fun x => decide (After c x)) l
  simpa [round] using h

theorem pairwise_round {c : Option α} {l : List α} (h : l.Pairwise (· < ·)) :
    (round c l).Pairwise (Before c) := by
  refine List.pairwise_append.2 ⟨?_, ?_, fun x hx y hy => ?_⟩
  · refine (h.filter _).imp_of_mem fun {x y} hx hy hlt => .inr ⟨?_, hlt⟩
    simp only [List.mem_filter, decide_eq_true_eq] at hx hy
    exact iff_of_true hx.2 hy.2
  · refine (h.filter _).imp_of_mem fun {x y} hx hy hlt => .inr ⟨?_, hlt⟩
    simp only [List.mem_filter, decide_eq_true_eq] at hx hy
    exact iff_of_false hx.2 hy.2
  · simp only [List.mem_filter, decide_eq_true_eq] at hx hy
    exact .inl ⟨hx.2, hy.2⟩

/-- Two values that come after a third keep their order in the round that begins
after it, -/
theorem Before.later {c : Option α} {a x y : α} (hx : Before c a x) (hy : Before c a y)
    (h : Before c x y) : Before (some a) x y := by
  cases c <;> simp only [Before, After] at * <;> grind

/-- and what came before it goes to the end of that round. -/
theorem Before.earlier {c : Option α} {a x y : α} (hx : Before c a x) (hy : y = a ∨ Before c y a) :
    Before (some a) x y := by
  cases c <;> simp only [Before, After] at * <;> grind

/-- Lists of the same values in the order of a round are the same. -/
theorem eq_of_pairwise_before {c : Option α} {l l' : List α} (hl : l.Pairwise (Before c))
    (hl' : l'.Pairwise (Before c)) (h : l.Perm l') : l = l' :=
  h.eq_of_pairwise (fun _ _ _ _ hab hba => absurd hba hab.asymm) hl hl'

theorem nodup_round {c : Option α} {l : List α} (h : l.Pairwise (· < ·)) : (round c l).Nodup :=
  (perm_round c l).nodup_iff.2 (h.imp fun hlt => hlt.ne)

/-- A list with the values of another, both in order. -/
theorem eq_of_same_mem {l l' : List α} (hl : l.Pairwise (· < ·)) (hl' : l'.Pairwise (· < ·))
    (h : ∀ x, x ∈ l ↔ x ∈ l') : l = l' :=
  ((List.perm_ext_iff_of_nodup (hl.imp fun hlt => hlt.ne) (hl'.imp fun hlt => hlt.ne)).2 h).eq_of_pairwise
    (fun _ _ _ _ hab hba => absurd hba hab.asymm) hl hl'

/-- What is left of a round comes first in the round that begins after the last value
visited. -/
theorem isPrefix_round {c : Option α} {l l' visited rest : List α} (hl : l.Pairwise (· < ·))
    (hl' : l'.Pairwise (· < ·)) (hsub : l' ⊆ l) (hround : round c l = visited ++ rest)
    (hrest : rest ⊆ l') : rest <+: round (position c visited) l' := by
  rcases List.eq_nil_or_concat visited with rfl | ⟨before, a, rfl⟩
  · -- Nothing was visited, so nothing is missing.
    have hmem : ∀ x, x ∈ l ↔ x ∈ l' := fun x =>
      ⟨fun hx => hrest (by rw [← List.nil_append rest, ← hround]; exact mem_round.2 hx),
        fun hx => hsub hx⟩
    have hwhole : round (position c []) l' = rest := by
      rw [position_nil, ← eq_of_same_mem hl hl' hmem, hround, List.nil_append]
    exact hwhole ▸ List.prefix_rfl
  · rw [List.concat_eq_append] at hround ⊢
    rw [position_append]
    have hpair := pairwise_round (c := c) hl
    rw [hround, List.append_assoc, List.singleton_append, List.pairwise_append,
      List.pairwise_cons] at hpair
    obtain ⟨-, ⟨hafter, hpairs⟩, hbefore⟩ := hpair
    let others := (round (some a) l').filter fun x => decide (x ∉ rest)
    have hothers : ∀ y ∈ others, y = a ∨ Before c y a := by
      intro y hy
      obtain ⟨hy, hnot⟩ := List.mem_filter.1 hy
      have hmem : y ∈ round c l := mem_round.2 (hsub (mem_round.1 hy))
      rw [hround] at hmem
      simp only [List.mem_append, List.mem_singleton] at hmem
      rcases hmem with (hmem | rfl) | hmem
      · exact .inr (hbefore y hmem a List.mem_cons_self)
      · exact .inl rfl
      · exact absurd hmem (by simpa using hnot)
    have hsorted : (rest ++ others).Pairwise (Before (some a)) := by
      refine List.pairwise_append.2 ⟨?_, (pairwise_round hl').filter _, fun x hx y hy => ?_⟩
      · exact hpairs.imp_of_mem fun hx hy hxy => (hafter _ hx).later (hafter _ hy) hxy
      · exact (hafter x hx).earlier (hothers y hy)
    have hnodup : rest.Nodup := by
      have h := nodup_round (c := c) hl
      rw [hround] at h
      exact (List.nodup_append.1 h).2.1
    have hperm : (rest ++ others).Perm (round (some a) l') := by
      refine (List.perm_ext_iff_of_nodup ?_ (nodup_round hl')).2 fun x => ?_
      · refine List.nodup_append.2 ⟨hnodup, (nodup_round hl').filter _, ?_⟩
        rintro x hx y hy rfl
        exact absurd hx (by simpa using (List.mem_filter.1 hy).2)
      · simp only [others, List.mem_append, List.mem_filter, mem_round, decide_eq_true_eq]
        constructor
        · rintro (hx | hx)
          · exact hrest hx
          · exact hx.1
        · intro hx
          exact (Decidable.em (x ∈ rest)).imp_right fun hn => ⟨hx, hn⟩
    exact ⟨others, eq_of_pairwise_before hsorted (pairwise_round hl') hperm⟩

/-! ## Batches -/

/-- A round is visited in batches of `m`: so far it is the beginning of the visit or
the visit is the beginning of it, and `k` batches of it are done. -/
structure Visits {α : Type} (m k : Nat) (order visited : List α) : Prop where
  along : visited <+: order ∨ order <+: visited
  batches : order.take (m * k) <+: visited

variable {β : Type} {m k : Nat} {order visited : List β}

theorem Visits.nil (m : Nat) (order : List β) : Visits m 0 order [] :=
  ⟨.inl List.nil_prefix, by simp⟩

/-- What is to be visited next: the rest of the round comes first. -/
theorem Visits.batch {next : List β} (h : Visits m k order visited)
    (hnext : ∀ rest, visited ++ rest = order → rest <+: next) :
    Visits m (k + 1) order (visited ++ next.take m) := by
  rcases h.along with ⟨rest, hrest⟩ | hdone
  · -- Both the round and the batch begin the visit of all that is next.
    have horder : order <+: visited ++ next := by
      obtain ⟨more, hmore⟩ := hnext rest hrest
      exact ⟨more, by rw [← hrest, ← hmore, List.append_assoc]⟩
    have hbatch : visited ++ next.take m <+: visited ++ next :=
      (List.prefix_append_right_inj visited).2 (List.take_prefix m next)
    refine ⟨List.prefix_or_prefix_of_prefix hbatch horder, ?_⟩
    refine List.prefix_of_prefix_length_le ((List.take_prefix _ _).trans horder) hbatch ?_
    have hlen := h.batches.length_le
    have horder' := horder.length_le
    rw [List.length_append] at horder' ⊢
    rw [List.length_take] at hlen ⊢
    rw [List.length_take, Nat.mul_succ]
    omega
  · exact ⟨.inr (hdone.trans (List.prefix_append _ _)),
      (List.take_prefix _ _).trans (hdone.trans (List.prefix_append _ _))⟩

/-- With enough batches the round is done. -/
theorem Visits.covers (h : Visits m k order visited) (hm : order.length ≤ m * k) :
    order <+: visited := by
  rw [← List.take_of_length_le hm]
  exact h.batches

end Data.Cyclic
