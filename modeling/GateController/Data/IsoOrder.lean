import GateController.Data.IsoTime
import GateController.Data.Numeral
import Mathlib.Data.String.Basic
import Mathlib.Order.Fin.Basic

/-!
# The order of ISO 8601 texts

The texts of instants compare as the instants do.  Up to the seconds the text is made of
fields of fixed width, the greatest unit first, so the first field that differs decides.
Where no field differs, a text without a fraction goes on with the sign of the offset, and
one with a fraction with a point, which is the greater character.
-/

namespace Data

/-! ## Fields of fixed width -/

theorem digitChar_lt : ∀ n < 10, ∀ m < n, digitChar m < digitChar n := by decide

/-- Numbers of one width compare as their texts do. -/
theorem padded_lt {k m n : Nat} (h : m < n) (hn : n < 10 ^ k) : padded k m < padded k n := by
  induction k generalizing m n with
  | zero =>
      have hnone : n = 0 := by simpa using hn
      omega
  | succ k ih =>
      have htens : n / 10 < 10 ^ k := by
        rw [Nat.pow_succ] at hn
        omega
      rw [padded, padded]
      by_cases hlt : m / 10 < n / 10
      · exact append_lt_append _ _ (by simp [length_padded]) (ih hlt htens)
      · have hsame : m / 10 = n / 10 := by omega
        have hdigit := digitChar_lt (n % 10) (by omega) (m % 10) (by omega)
        rw [hsame]
        exact List.append_left_lt (List.cons_lt_cons_iff.2 (.inl hdigit))

/-- A field that differs decides. -/
theorem padded_append_lt {k m n : Nat} (s t : List Char) (h : m < n) (hn : n < 10 ^ k) :
    padded k m ++ s < padded k n ++ t :=
  append_lt_append s t (by rw [length_padded, length_padded]) (padded_lt h hn)

/-- A field and what separates it from the rest, if the rest decides. -/
theorem padded_sep_lt {k n : Nat} {sep : Char} {s t : List Char} (h : s < t) :
    padded k n ++ sep :: s < padded k n ++ sep :: t :=
  List.append_left_lt (List.cons_lt_cons_self.2 h)

/-! ## The calendar -/

theorem daysBeforeYear_succ {y : Nat} (h : 1 ≤ y) :
    daysBeforeYear (y + 1) = daysBeforeYear y + 365 + if leapYear y then 1 else 0 := by
  obtain ⟨p, rfl⟩ : ∃ p, y = p + 1 := ⟨y - 1, by omega⟩
  have hfour : (p + 1) / 4 = p / 4 + if (p + 1) % 4 = 0 then 1 else 0 := by split <;> omega
  have hhundred : (p + 1) / 100 = p / 100 + if (p + 1) % 100 = 0 then 1 else 0 := by
    split <;> omega
  have hera : (p + 1) / 400 = p / 400 + if (p + 1) % 400 = 0 then 1 else 0 := by
    split <;> omega
  have hle : p / 100 ≤ p / 4 := by omega
  have hcentury : (p + 1) % 100 = 0 → (p + 1) % 4 = 0 := by omega
  have hcycle : (p + 1) % 400 = 0 → (p + 1) % 100 = 0 := by omega
  simp only [daysBeforeYear, Nat.add_sub_cancel, hfour, hhundred, hera, leapYear,
    Bool.and_eq_true, Bool.or_eq_true, beq_iff_eq, bne_iff_ne]
  generalize p / 4 = a at hle ⊢
  generalize p / 100 = b at hle ⊢
  generalize p / 400 = c
  generalize (p + 1) % 4 = d at hcentury ⊢
  generalize (p + 1) % 100 = e at hcentury hcycle ⊢
  generalize (p + 1) % 400 = f at hcycle ⊢
  by_cases he : e = 0
  · have hd := hcentury he
    simp only [he, hd, if_true, ne_eq, not_true_eq_false, false_or, true_and]
    omega
  · have hf : f ≠ 0 := fun hf => he (hcycle hf)
    simp only [he, hf]
    split <;> simp_all <;> omega

theorem daysBeforeYear_le {y z : Nat} (hy : 1 ≤ y) (h : y ≤ z) :
    daysBeforeYear y ≤ daysBeforeYear z := by
  induction z, h using Nat.le_induction with
  | base => exact Nat.le_refl _
  | succ z hyz ih =>
      rw [daysBeforeYear_succ (Nat.le_trans hy hyz)]
      omega

/-- A later day is not in an earlier year, and has a greater number in the same year. -/
theorem yearDay_lt {m n : Nat} (h : m < n) :
    (yearDay m).1 < (yearDay n).1 ∨
      (yearDay m).1 = (yearDay n).1 ∧ (yearDay m).2 < (yearDay n).2 := by
  have hm := daysBeforeYear_yearDay m
  have hn := daysBeforeYear_yearDay n
  obtain hlt | heq | hgt := Nat.lt_trichotomy (yearDay m).1 (yearDay n).1
  · exact .inl hlt
  · rw [heq] at hm
    exact .inr ⟨heq, by omega⟩
  · -- The later day would end before the year of the earlier one begins.
    have hyear := daysBeforeYear_succ (yearDay_pos n)
    have hle := daysBeforeYear_le (by omega : 1 ≤ (yearDay n).1 + 1) hgt
    have hday := yearDay_day_lt n
    omega

theorem monthOfDay_succ : ∀ (leap : Bool) (r : Nat), r < 366 →
    monthOfDay leap r ≤ monthOfDay leap (r + 1) := by
  decide +kernel

theorem monthOfDay_le (leap : Bool) {r s : Nat} (h : r ≤ s) (hs : s ≤ 366) :
    monthOfDay leap r ≤ monthOfDay leap s := by
  induction s, h using Nat.le_induction with
  | base => exact Nat.le_refl _
  | succ s hrs ih => exact (ih (by omega)).trans (monthOfDay_succ leap s (by omega))

/-- Dates compare by year, then by month, then by day. -/
theorem civil_lt {m n : Nat} (h : m < n) :
    (civil m).1 < (civil n).1 ∨ (civil m).1 = (civil n).1 ∧
      ((civil m).2.1 < (civil n).2.1 ∨ (civil m).2.1 = (civil n).2.1 ∧
        (civil m).2.2 < (civil n).2.2) := by
  obtain hyear | ⟨hyear, hday⟩ := yearDay_lt h
  · exact .inl hyear
  · refine .inr ⟨hyear, ?_⟩
    have hn := yearDay_day_lt n
    have hmonth := monthOfDay_le (leapYear (yearDay n).1) (Nat.le_of_lt hday)
      (by split at hn <;> omega)
    obtain ⟨-, hfirst, -⟩ :=
      monthOfDay_spec (leapYear (yearDay m).1) (yearDay m).2 (yearDay_day_lt m)
    simp only [civil]
    rw [hyear] at hfirst ⊢
    obtain hlt | heq := Nat.lt_or_eq_of_le hmonth
    · exact .inl hlt
    · refine .inr ⟨heq, ?_⟩
      rw [heq] at hfirst ⊢
      omega

/-! ## Texts -/

/-- The rest of the text after the seconds, from the microseconds. -/
theorem fractionText_lt {us us' : Nat} (h : us < us') (hlt : us' < 1000000) :
    fractionText us ++ ['+', '0', '0', ':', '0', '0'] <
      fractionText us' ++ ['+', '0', '0', ':', '0', '0'] := by
  rw [fractionText, fractionText, if_neg (by omega : us' ≠ 0)]
  split
  next => exact List.cons_lt_cons_iff.2 (.inl (by decide))
  next => exact List.cons_lt_cons_self.2 (padded_append_lt _ _ h hlt)

/-- The time of a day, from the microseconds since midnight. -/
theorem timeText_lt {r s : Nat} (h : r < s) (hs : s < dayMicros) :
    padded 2 (r / 3600000000) ++ ':' :: (padded 2 (r / 60000000 % 60) ++
      ':' :: (padded 2 (r / 1000000 % 60) ++
      (fractionText (r % 1000000) ++ ['+', '0', '0', ':', '0', '0']))) <
    padded 2 (s / 3600000000) ++ ':' :: (padded 2 (s / 60000000 % 60) ++
      ':' :: (padded 2 (s / 1000000 % 60) ++
      (fractionText (s % 1000000) ++ ['+', '0', '0', ':', '0', '0']))) := by
  unfold dayMicros at hs
  obtain hhour | hhour : r / 3600000000 < s / 3600000000 ∨ r / 3600000000 = s / 3600000000 := by
    omega
  · exact padded_append_lt _ _ hhour (by omega)
  rw [hhour]
  refine padded_sep_lt ?_
  obtain hminute | hminute : r / 60000000 % 60 < s / 60000000 % 60 ∨
      r / 60000000 % 60 = s / 60000000 % 60 := by
    omega
  · exact padded_append_lt _ _ hminute (by omega)
  rw [hminute]
  refine padded_sep_lt ?_
  obtain hsecond | hsecond : r / 1000000 % 60 < s / 1000000 % 60 ∨
      r / 1000000 % 60 = s / 1000000 % 60 := by
    omega
  · exact padded_append_lt _ _ hsecond (by omega)
  rw [hsecond]
  exact List.append_left_lt (fractionText_lt (by omega) (by omega))

/-- Of two instants the later one has the greater text. -/
theorem isoformat_strictMono : StrictMono Instant.isoformat := by
  intro t u htu
  have hlt : t.val < u.val := htu
  rw [String.lt_iff_toList_lt, Instant.toList_isoformat, Instant.toList_isoformat]
  have hday : t.val / dayMicros ≤ u.val / dayMicros := Nat.div_le_div_right (Nat.le_of_lt hlt)
  have htime : u.val % dayMicros < dayMicros := Nat.mod_lt _ (by decide)
  obtain hday | hday := Nat.lt_or_eq_of_le hday
  · have hlast : u.val / dayMicros < maxDays :=
      Nat.div_lt_of_lt_mul (u.isLt.trans_eq instants_eq)
    obtain ⟨hm, -, hd⟩ := civil_spec (u.val / dayMicros)
    have hshort := daysInMonth_le (leapYear (civil (u.val / dayMicros)).1)
      (civil (u.val / dayMicros)).2.1 (by omega)
    obtain hyear | ⟨hyear, hmonth | ⟨hmonth, hdate⟩⟩ := civil_lt hday
    · exact padded_append_lt _ _ hyear (civil_year_lt hlast)
    · rw [hyear]
      exact padded_sep_lt (padded_append_lt _ _ hmonth (by omega))
    · rw [hyear, hmonth]
      exact padded_sep_lt (padded_sep_lt (padded_append_lt _ _ hdate (by omega)))
  · rw [hday]
    refine padded_sep_lt (padded_sep_lt (padded_sep_lt (timeText_lt ?_ htime)))
    have ht := Nat.div_add_mod t.val dayMicros
    have hu := Nat.div_add_mod u.val dayMicros
    rw [hday] at ht
    omega

/-- Texts of instants compare as the instants do. -/
theorem compare_isoformat (t u : Instant) : compare t.isoformat u.isoformat = compare t u := by
  obtain hlt | rfl | hgt := lt_trichotomy t u
  · rw [compare_lt_iff_lt.2 hlt, compare_lt_iff_lt.2 (isoformat_strictMono hlt)]
  · rw [compare_eq_iff_eq.2 rfl, compare_eq_iff_eq.2 rfl]
  · rw [compare_gt_iff_gt.2 hgt, compare_gt_iff_gt.2 (isoformat_strictMono hgt)]

end Data
