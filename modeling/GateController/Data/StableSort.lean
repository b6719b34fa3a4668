import Mathlib.Data.List.Sort
import Mathlib.Order.Defs.LinearOrder
import Mathlib.Data.List.Basic

/-!
# The place of an element in a stable sort

A list is sorted by a key, largest first, and elements with equal keys keep
their order.  So the place of an element is known before the sort: it comes
after the elements with a larger key, and after those with the same key that
stand before it.
-/

namespace Data

variable {α κ : Type} [LinearOrder κ]

/-- Sorted by the key, largest first, as a stable sort does it. -/
def sortDescending (key : α → κ) (l : List α) : List α :=
  l.insertionSort fun a b => key b ≤ key a

theorem sortDescending_perm (key : α → κ) (l : List α) : (sortDescending key l).Perm l :=
  List.perm_insertionSort _ l

theorem sortDescending_pairwise (key : α → κ) (l : List α) :
    (sortDescending key l).Pairwise fun a b => key b ≤ key a := by
  have : Std.Total fun a b : α => key b ≤ key a := ⟨fun a b => le_total (key b) (key a)⟩
  have : IsTrans α fun a b : α => key b ≤ key a := ⟨fun _ _ _ h₁ h₂ => h₂.trans h₁⟩
  exact List.pairwise_insertionSort _ l

/-- Elements with one key keep their order. -/
theorem sortDescending_filter_eq (key : α → κ) (l : List α) (k : κ) :
    (sortDescending key l).filter (fun b => key b = k) = l.filter fun b => key b = k := by
  have hsorted : (l.filter fun b => key b = k).Pairwise fun a b => key b ≤ key a := by
    refine List.pairwise_of_forall_mem_list fun a ha b hb => ?_
    rw [of_decide_eq_true (List.mem_filter.1 ha).2, of_decide_eq_true (List.mem_filter.1 hb).2]
  have hsub := (List.sublist_insertionSort hsorted List.filter_sublist).filter
    fun b => decide (key b = k)
  rw [List.filter_filter] at hsub
  simp only [Bool.and_self] at hsub
  exact (hsub.eq_of_length ((sortDescending_perm key l).filter _).length_eq.symm).symm

section Rank

variable [DecidableEq α] {key : α → κ} {l : List α} {a : α}

/-- How many elements the sort puts before this one. -/
def descendingRank (key : α → κ) (l : List α) (a : α) : Nat :=
  (l.filter fun b => key a < key b).length +
    ((l.takeWhile fun b => b ≠ a).filter fun b => key b = key a).length

omit [LinearOrder κ] in
/-- A list up to an element, the element, and the rest. -/
theorem takeWhile_ne_append (ha : a ∈ l) :
    ∃ after, l = (l.takeWhile fun b => b ≠ a) ++ a :: after := by
  induction l with
  | nil => cases ha
  | cons b l ih =>
      by_cases hb : b = a
      · exact ⟨l, by simp [hb]⟩
      · obtain ⟨after, hafter⟩ := ih ((List.mem_cons.1 ha).resolve_left (Ne.symm hb))
        refine ⟨after, ?_⟩
        rw [List.takeWhile_cons_of_pos (by simpa using hb), List.cons_append, ← hafter]

/-- The element stands where its rank says. -/
theorem sortDescending_split (key : α → κ) (hnodup : l.Nodup) (ha : a ∈ l) :
    ∃ before after, sortDescending key l = before ++ a :: after ∧ a ∉ before ∧ a ∉ after ∧
      before.length = descendingRank key l a := by
  obtain ⟨before, after, hsplit⟩ := List.append_of_mem ((sortDescending_perm key l).mem_iff.2 ha)
  have hnd : (before ++ a :: after).Nodup := by
    rw [← hsplit]
    exact (sortDescending_perm key l).nodup_iff.2 hnodup
  obtain ⟨-, hnd₂, hdisj⟩ := List.nodup_append.1 hnd
  have hbefore : a ∉ before := fun h => hdisj a h a List.mem_cons_self rfl
  have hafter : a ∉ after := (List.nodup_cons.1 hnd₂).1
  have hpair := sortDescending_pairwise key l
  rw [hsplit, List.pairwise_append, List.pairwise_cons] at hpair
  obtain ⟨-, ⟨hle, -⟩, hge⟩ := hpair
  have hge' : ∀ b ∈ before, key a ≤ key b := fun b hb => hge b hb a List.mem_cons_self
  refine ⟨before, after, hsplit, hbefore, hafter, ?_⟩
  -- larger keys all stand before the element
  have hlarger : (before.filter fun b => key a < key b).length =
      (l.filter fun b => key a < key b).length := by
    have hperm := ((sortDescending_perm key l).filter fun b => decide (key a < key b)).length_eq
    rw [hsplit, List.filter_append, List.filter_cons_of_neg (by simp)] at hperm
    have hnone : (after.filter fun b => decide (key a < key b)) = [] :=
      List.filter_eq_nil_iff.2 fun b hb => by simpa using hle b hb
    rwa [hnone, List.append_nil] at hperm
  -- equal keys stand before it as in the list
  have hequal : before.filter (fun b => key b = key a) =
      (l.takeWhile fun b => b ≠ a).filter fun b => key b = key a := by
    have heq := sortDescending_filter_eq key l (key a)
    obtain ⟨after', hl⟩ := takeWhile_ne_append ha
    rw [hsplit, List.filter_append, List.filter_cons_of_pos (by simp)] at heq
    rw [hl, List.filter_append, List.filter_cons_of_pos (by simp)] at heq
    refine ((List.append_cons_inj_of_notMem ?_ ?_).1 heq).1
    · exact fun h => hbefore (List.mem_filter.1 h).1
    · exact fun h => hafter (List.mem_filter.1 h).1
  rw [descendingRank, ← hlarger, ← hequal]
  have hcover : before.filter (fun b => !decide (key a < key b)) =
      before.filter fun b => decide (key b = key a) := by
    refine List.filter_congr fun b hb => ?_
    have := hge' b hb
    by_cases h : key b = key a
    · simp [h]
    · have hlt : key a < key b := lt_of_le_of_ne this (Ne.symm h)
      simp [h, hlt]
  rw [← hcover]
  exact List.length_eq_length_filter_add _

theorem mem_drop_sortDescending (key : α → κ) (hnodup : l.Nodup) (ha : a ∈ l) (n : Nat) :
    a ∈ (sortDescending key l).drop n ↔ n ≤ descendingRank key l a := by
  obtain ⟨before, after, hsplit, hbefore, hafter, hlen⟩ := sortDescending_split key hnodup ha
  rw [hsplit, ← hlen]
  by_cases hn : n ≤ before.length
  · rw [List.drop_append_of_le_length hn]
    exact ⟨fun _ => hn, fun _ => List.mem_append_right _ List.mem_cons_self⟩
  · refine ⟨fun h => ?_, fun h => absurd h hn⟩
    obtain ⟨m, hm⟩ := Nat.exists_eq_add_of_lt (Nat.lt_of_not_le hn)
    rw [List.drop_append, List.drop_eq_nil_of_le (by omega), List.nil_append] at h
    rw [show n - before.length = m + 1 by omega, List.drop_succ_cons] at h
    exact absurd (List.mem_of_mem_drop h) hafter

end Rank

end Data
