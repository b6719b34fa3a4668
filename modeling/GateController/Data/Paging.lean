import Mathlib.Data.List.Induction
import Mathlib.Data.List.Sort
import Mathlib.Order.Defs.LinearOrder

/-!
# Pages by key

A list in the order of distinct keys is read in pages.  A page has the items whose key is
above that of the last item read, up to a limit, and an empty page ends it.  Whatever the
limit is, if it is not zero, the pages together are the list.
-/

namespace Data

variable {α β κ : Type} [LinearOrder κ]

/-- Ordered by a key. -/
def orderBy (key : α → κ) (l : List α) : List α := l.insertionSort fun a b => key a ≤ key b

/-- Above the key, if there is one. -/
def isAfter (after : Option κ) (k : κ) : Bool := after.all fun bound => decide (bound < k)

/-- Read page after page, up to an empty one, for a number of pages. -/
def collectPages (key : α → κ) (page : Option κ → List α) :
    Nat → Option κ → List α → Option (List α)
  | 0, _, _ => none
  | fuel + 1, after, read =>
      match (page after).getLast? with
      | none => some read
      | some last => collectPages key page fuel (some (key last)) (read ++ page after)

section OrderBy

variable {key : α → κ} {l : List α}

theorem orderBy_perm (key : α → κ) (l : List α) : (orderBy key l).Perm l :=
  List.perm_insertionSort _ l

/-- If the keys are distinct, they increase. -/
theorem orderBy_pairwise (h : (l.map key).Nodup) :
    (orderBy key l).Pairwise fun a b => key a < key b := by
  have : Std.Total fun a b : α => key a ≤ key b := ⟨fun a b => le_total (key a) (key b)⟩
  have : IsTrans α fun a b : α => key a ≤ key b := ⟨fun _ _ _ h₁ h₂ => h₁.trans h₂⟩
  have hsorted : (orderBy key l).Pairwise fun a b => key a ≤ key b :=
    List.pairwise_insertionSort _ l
  have hne : (orderBy key l).Pairwise fun a b => key a ≠ key b :=
    List.pairwise_map.1 (((orderBy_perm key l).map key).nodup_iff.2 h)
  exact hsorted.imp₂ (fun _ _ hle hne => lt_of_le_of_ne hle hne) hne

/-- There is one list in the order of the keys. -/
theorem eq_of_pairwise_lt {l₁ l₂ : List α} (h : l₁.Perm l₂)
    (h₁ : l₁.Pairwise fun a b => key a < key b) (h₂ : l₂.Pairwise fun a b => key a < key b) :
    l₁ = l₂ :=
  List.Perm.eq_of_pairwise (fun _ _ _ _ hab hba => absurd hab hba.asymm) h₁ h₂ h

/-- Items are chosen before they are ordered or after. -/
theorem orderBy_filter (h : (l.map key).Nodup) (p : α → Bool) :
    orderBy key (l.filter p) = (orderBy key l).filter p := by
  have hsub : ((l.filter p).map key).Nodup := h.sublist (List.filter_sublist.map key)
  exact eq_of_pairwise_lt ((orderBy_perm key _).trans ((orderBy_perm key l).filter p).symm)
    (orderBy_pairwise hsub) ((orderBy_pairwise h).filter p)

end OrderBy

section Pages

variable {key : α → κ} {l : List α} {page : Option κ → List α} {limit : Nat}

/-- The items above the last one that was read are those that were not read. -/
theorem filter_isAfter {read rest : List α}
    (h : (read ++ rest).Pairwise fun a b => key a < key b) :
    (read ++ rest).filter (fun a => isAfter (read.getLast?.map key) (key a)) = rest := by
  cases hread : read using List.reverseRecOn with
  | nil => exact List.filter_eq_self.2 fun _ _ => rfl
  | append_singleton before last =>
      rw [hread] at h
      obtain ⟨hbefore, -, hafter⟩ := List.pairwise_append.1 h
      obtain ⟨-, -, hlast⟩ := List.pairwise_append.1 hbefore
      rw [List.getLast?_concat, Option.map_some, List.filter_append, List.filter_eq_nil_iff.2,
        List.nil_append, List.filter_eq_self.2]
      · intro a ha
        exact decide_eq_true (hafter last (List.mem_append_right _ (List.mem_singleton_self _)) a ha)
      · intro a ha habove
        have hlt : key last < key a := of_decide_eq_true habove
        obtain ha | ha := List.mem_append.1 ha
        · exact absurd hlt (hlast a ha last (List.mem_singleton_self _)).asymm
        · rw [List.mem_singleton.1 ha] at hlt
          exact absurd hlt (lt_irrefl _)

/-- From a point on, the pages have the rest of the list. -/
theorem collectPages_of_read (hsorted : l.Pairwise fun a b => key a < key b)
    (hpage : ∀ after, page after = (l.filter fun a => isAfter after (key a)).take limit)
    (hlimit : 1 ≤ limit) {read rest : List α} (hsplit : l = read ++ rest) {fuel : Nat}
    (hfuel : rest.length < fuel) :
    collectPages key page fuel (read.getLast?.map key) read = some l := by
  induction fuel generalizing read rest with
  | zero => exact absurd hfuel (Nat.not_lt_zero _)
  | succ fuel ih =>
      have hnext : page (read.getLast?.map key) = rest.take limit := by
        rw [hpage, hsplit, filter_isAfter (hsplit ▸ hsorted)]
      rw [collectPages, hnext]
      cases hrest : rest with
      | nil =>
          rw [hrest, List.append_nil] at hsplit
          rw [List.take_nil]
          exact congrArg some hsplit.symm
      | cons a rest' =>
          rw [← hrest]
          have hne : rest.take limit ≠ [] := by
            rw [hrest, ne_eq, List.take_eq_nil_iff]
            rintro (h | h)
            · omega
            · cases h
          have hlast : (read ++ rest.take limit).getLast? = (rest.take limit).getLast? :=
            List.getLast?_append_of_ne_nil _ hne
          have hmore := @ih (read ++ rest.take limit) (rest.drop limit)
            (by rw [List.append_assoc, List.take_append_drop, hsplit])
            (by
              rw [hrest] at hfuel ⊢
              rw [List.length_cons] at hfuel
              rw [List.length_drop, List.length_cons]
              omega)
          rw [hlast] at hmore
          cases hget : (rest.take limit).getLast? with
          | none => exact absurd (List.getLast?_eq_none_iff.1 hget) hne
          | some last =>
              rw [hget] at hmore
              exact hmore

/-- The pages together are the list. -/
theorem collectPages_eq (hsorted : l.Pairwise fun a b => key a < key b)
    (hpage : ∀ after, page after = (l.filter fun a => isAfter after (key a)).take limit)
    (hlimit : 1 ≤ limit) {fuel : Nat} (hfuel : l.length < fuel) :
    collectPages key page fuel none [] = some l :=
  have hsplit : l = [] ++ l := rfl
  collectPages_of_read hsorted hpage hlimit hsplit hfuel

end Pages

end Data
