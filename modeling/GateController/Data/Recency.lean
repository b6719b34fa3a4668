import Mathlib.Data.List.Dedup
import Mathlib.Data.List.DropRight

/-!
# The most recent distinct items

A bounded buffer that moves an item to its end when it arrives again, and gives
up its first item when it is over full, holds the last distinct items of what
has arrived.  `recent n l` is that list, oldest first.  `List.dedup` keeps the
last occurrence of every item, which is the one that counts.

Where only a part of an item tells it from others, `latest` is the list instead: the
items whose key does not come again.
-/

namespace Data

variable {α : Type}

theorem rtake_append_of_length {n : Nat} {front back : List α} (h : back.length = n) :
    (front ++ back).rtake n = back := by
  rw [List.rtake, List.length_append, h, Nat.add_sub_cancel]
  exact List.drop_left

theorem rtake_of_length_le {n : Nat} {l : List α} (h : l.length ≤ n) : l.rtake n = l := by
  rw [List.rtake, Nat.sub_eq_zero_of_le h, List.drop_zero]

variable [DecidableEq α]

/-- The last `n` distinct items. -/
def recent (n : Nat) (l : List α) : List α := l.dedup.rtake n

@[simp] theorem recent_nil (n : Nat) : recent n ([] : List α) = [] := List.rtake_nil n

/-- An item that arrives goes to the end. -/
theorem dedup_concat (l : List α) (x : α) : (l ++ [x]).dedup = l.dedup.erase x ++ [x] := by
  induction l with
  | nil => rfl
  | cons y l ih =>
      by_cases hy : y ∈ l
      · rw [List.cons_append, List.dedup_cons_of_mem (List.mem_append_left _ hy), ih,
          List.dedup_cons_of_mem hy]
      · by_cases hxy : y = x
        · subst hxy
          rw [List.cons_append, List.dedup_cons_of_mem (List.mem_append_right _ List.mem_cons_self),
            ih, List.dedup_cons_of_notMem hy, List.erase_cons_head,
            List.erase_of_not_mem (mt List.mem_dedup.1 hy)]
        · have hnot : y ∉ l ++ [x] := by simp [hy, hxy]
          rw [List.cons_append, List.dedup_cons_of_notMem hnot, ih, List.dedup_cons_of_notMem hy,
            List.erase_cons_tail (by simpa using hxy), List.cons_append]

/-- What is given up and what is kept.  Something is given up only if the buffer is
full. -/
theorem exists_append_recent (n : Nat) (l : List α) :
    ∃ front, l.dedup = front ++ recent n l ∧ (recent n l).length ≤ n ∧
      (front ≠ [] → (recent n l).length = n) := by
  refine ⟨l.dedup.take (l.dedup.length - n), (List.take_append_drop _ _).symm, ?_, ?_⟩
  · simp only [recent, List.rtake, List.length_drop]
    omega
  · intro hfront
    have hlt : n < l.dedup.length := by
      by_contra hle
      exact hfront (by rw [Nat.sub_eq_zero_of_le (by omega), List.take_zero])
    simp only [recent, List.rtake, List.length_drop]
    omega

theorem recent_eq_nil_iff {n : Nat} (hn : 0 < n) {l : List α} : recent n l = [] ↔ l = [] := by
  simp only [recent, List.rtake, List.drop_eq_nil_iff]
  rw [← List.dedup_eq_nil l, ← List.length_eq_zero_iff]
  omega

/-- The step of the buffer. -/
theorem recent_concat {n : Nat} (hn : 0 < n) (l : List α) (x : α) :
    recent n (l ++ [x]) =
      if n < ((recent n l).erase x ++ [x]).length then ((recent n l).erase x ++ [x]).tail
      else (recent n l).erase x ++ [x] := by
  obtain ⟨m, rfl⟩ := Nat.exists_eq_succ_of_ne_zero hn.ne'
  obtain ⟨front, hd, hle, hfull⟩ := exists_append_recent m.succ l
  have hnodup : (front ++ recent m.succ l).Nodup := hd ▸ List.nodup_dedup l
  have hstep : recent m.succ (l ++ [x]) = ((front ++ recent m.succ l).erase x).rtake m ++ [x] := by
    rw [recent, dedup_concat, List.rtake_concat_succ, ← hd]
  rw [hstep]
  generalize recent m.succ l = back at *
  by_cases hback : x ∈ back
  · -- The item is held: its place is taken from it, and nothing is given up.
    have hfront : x ∉ front := fun h => (List.nodup_append.1 hnodup).2.2 x h x hback rfl
    have hlen : (back.erase x).length + 1 = back.length := by
      rw [List.length_erase_of_mem hback]
      have := List.length_pos_of_mem hback
      omega
    rw [List.erase_append_right _ hfront, if_neg (by rw [List.length_append, List.length_singleton]; omega)]
    congr 1
    rcases eq_or_ne front [] with rfl | hne
    · exact rtake_of_length_le (by rw [List.nil_append]; omega)
    · exact rtake_append_of_length (by have := hfull hne; omega)
  · rw [List.erase_of_not_mem hback, List.length_append, List.length_singleton]
    rcases Nat.lt_or_ge back.length m.succ with hlt | hge
    · -- The buffer has room, so it holds everything so far.
      obtain rfl : front = [] := by
        by_contra hne
        exact absurd (hfull hne) hlt.ne
      rw [if_neg (by omega), List.nil_append, List.erase_of_not_mem hback,
        rtake_of_length_le (by omega)]
    · cases back with
      | nil => cases hge
      | cons y back =>
          have hlen : back.length = m := by
            rw [List.length_cons] at hle hge
            omega
          rw [if_pos (by rw [List.length_cons]; omega)]
          have hrest : ∃ front', (front ++ y :: back).erase x = front' ++ back := by
            by_cases hfront : x ∈ front
            · exact ⟨front.erase x ++ [y], by rw [List.erase_append_left _ hfront]; simp⟩
            · refine ⟨front ++ [y], ?_⟩
              rw [List.erase_append_right _ hfront, List.erase_of_not_mem hback]
              simp
          obtain ⟨front', hfront'⟩ := hrest
          rw [hfront', rtake_append_of_length hlen]
          rfl

/-! ## Items with keys -/

section Keys

variable {κ : Type} [DecidableEq κ] {key : α → κ}

omit [DecidableEq α]

/-- Of the items with one key the last one. -/
def latest (key : α → κ) : List α → List α
  | [] => []
  | x :: l => if key x ∈ l.map key then latest key l else x :: latest key l

theorem map_latest (key : α → κ) (l : List α) : (latest key l).map key = (l.map key).dedup := by
  induction l with
  | nil => rfl
  | cons x l ih =>
      rw [latest, List.map_cons]
      split
      next h => rw [ih, List.dedup_cons_of_mem h]
      next h => rw [List.map_cons, ih, List.dedup_cons_of_notMem h]

/-- The keys are distinct. -/
theorem nodup_latest (key : α → κ) (l : List α) : ((latest key l).map key).Nodup := by
  rw [map_latest]
  exact List.nodup_dedup _

/-- An item that arrives takes the place of the one with its key. -/
theorem latest_concat (l : List α) (x : α) :
    latest key (l ++ [x]) = (latest key l).filter (fun y => key y ≠ key x) ++ [x] := by
  induction l with
  | nil => rfl
  | cons y l ih =>
      rw [List.cons_append, latest, latest, ih, List.map_append]
      by_cases hy : key y ∈ l.map key
      · rw [if_pos hy, if_pos (List.mem_append_left _ hy)]
      · rw [if_neg hy]
        by_cases hxy : key y = key x
        · rw [if_pos (List.mem_append_right _ (by simp [hxy])),
            List.filter_cons_of_neg (by simp [hxy])]
        · rw [if_neg (by simpa [hxy] using hy), List.filter_cons_of_pos (by simp [hxy]),
            List.cons_append]

end Keys

end Data
