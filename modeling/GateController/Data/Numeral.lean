import Mathlib.Algebra.Order.Ring.Rat
import Mathlib.Data.String.Basic
import Mathlib.Order.Fin.Basic
import Mathlib.Tactic.Linarith
import Mathlib.Tactic.Positivity
import Mathlib.Tactic.GCongr

/-!
# The text order of decimal numerals

A numeral is a sign, a whole number without leading zeros and a tail, which is the point
and what follows it.  Texts compare character by character.  So two numerals whose whole
parts have one width compare as numbers do, and of two widths only the leading digits
count: `"100.0"` comes before `"90.0"`.

`Numeral.text_le_iff` says by the digits when one text is not after another.  For numerals
that are exact, `Numeral.Denotes.hidden_iff` and `Numeral.Denotes.phantom_iff` say by the
digits where this is not the order of the numbers.
-/

namespace Data

/-! ## Lists of characters -/

/-- Of lists whose beginnings have one length, the beginnings decide. -/
theorem append_lt_append {l₁ l₂ : List Char} (s t : List Char) (hlen : l₁.length = l₂.length)
    (h : l₁ < l₂) : l₁ ++ s < l₂ ++ t := by
  induction l₁ generalizing l₂ with
  | nil =>
      cases l₂ with
      | nil => exact absurd h (lt_irrefl _)
      | cons d l₂ => cases hlen
  | cons c l₁ ih =>
      cases l₂ with
      | nil => cases hlen
      | cons d l₂ =>
          rw [List.cons_append, List.cons_append, List.cons_lt_cons_iff]
          obtain hlt | ⟨heq, hlt⟩ := List.cons_lt_cons_iff.1 h
          · exact .inl hlt
          · exact .inr ⟨heq, ih (Nat.succ.inj hlen) hlt⟩

/-- A common beginning does not count. -/
theorem append_le_append_iff (l s t : List Char) : l ++ s ≤ l ++ t ↔ s ≤ t := by
  constructor
  · exact fun h => not_lt.1 fun hlt => not_le.2 (List.append_left_lt hlt) h
  · intro h
    rcases h.lt_or_eq with hlt | rfl
    · exact (List.append_left_lt hlt).le
    · exact le_rfl

theorem zero_le_of_isDigit {c : Char} (h : c.isDigit = true) : '0' ≤ c := by
  simp only [Char.isDigit, Bool.and_eq_true, decide_eq_true_eq] at h
  exact h.1

theorem toDigits_digitChar_lt : ∀ n < 10, ∀ m < n, m.digitChar < n.digitChar := by decide

theorem length_toDigits_lt_iff {m n : Nat}
    (h : (Nat.toDigits 10 m).length = (Nat.toDigits 10 n).length) : m < 10 ↔ n < 10 := by
  have hm := @Nat.length_toDigits_le_iff 10 m 1 (by decide) (by decide)
  have hn := @Nat.length_toDigits_le_iff 10 n 1 (by decide) (by decide)
  rw [h] at hm
  simpa using hm.symm.trans hn

/-- Whole numbers of one width compare as their digits do. -/
theorem toDigits_lt {m n : Nat} (hlen : (Nat.toDigits 10 m).length = (Nat.toDigits 10 n).length)
    (h : m < n) : Nat.toDigits 10 m < Nat.toDigits 10 n := by
  induction n using Nat.strong_induction_on generalizing m with
  | _ n ih =>
      by_cases hn : n < 10
      · rw [Nat.toDigits_of_lt_base hn, Nat.toDigits_of_lt_base (h.trans hn)]
        exact List.cons_lt_cons_iff.2 (.inl (toDigits_digitChar_lt n hn m h))
      · have hm : ¬ m < 10 := fun hm => hn ((length_toDigits_lt_iff hlen).1 hm)
        rw [Nat.toDigits_of_base_le (by decide) (not_lt.1 hn),
          Nat.toDigits_of_base_le (by decide) (not_lt.1 hm)] at hlen ⊢
        have hlen' : (Nat.toDigits 10 (m / 10)).length = (Nat.toDigits 10 (n / 10)).length := by
          simpa using hlen
        by_cases hlt : m / 10 < n / 10
        · exact append_lt_append _ _ hlen' (ih (n / 10) (by omega) hlen' hlt)
        · have hsame : m / 10 = n / 10 := by omega
          have hdigit := toDigits_digitChar_lt (n % 10) (by omega) (m % 10) (by omega)
          rw [hsame]
          exact List.append_left_lt (List.cons_lt_cons_iff.2 (.inl hdigit))

/-- Digits of one width decide, and where they agree, what follows. -/
theorem toDigits_append_le_iff {m n : Nat} {s t : List Char}
    (hlen : (Nat.toDigits 10 m).length = (Nat.toDigits 10 n).length) :
    Nat.toDigits 10 m ++ s ≤ Nat.toDigits 10 n ++ t ↔ m < n ∨ m = n ∧ s ≤ t := by
  obtain hlt | rfl | hgt := Nat.lt_trichotomy m n
  · have hdigits := append_lt_append s t hlen (toDigits_lt hlen hlt)
    exact iff_of_true hdigits.le (.inl hlt)
  · simp [append_le_append_iff]
  · have hdigits := append_lt_append t s hlen.symm (toDigits_lt hlen.symm hgt)
    refine iff_of_false (not_le.2 hdigits) ?_
    omega

/-- The leading digits of a number. -/
theorem toDigits_leading {n k : Nat} (h : k < (Nat.toDigits 10 n).length) :
    ∃ rest, Nat.toDigits 10 n = Nat.toDigits 10 (n / 10 ^ k) ++ rest ∧ rest.length = k := by
  induction k with
  | zero => exact ⟨[], by simp, rfl⟩
  | succ k ih =>
      obtain ⟨rest, hdigits, hlen⟩ := ih (by omega)
      have hwidth : 1 < (Nat.toDigits 10 (n / 10 ^ k)).length := by
        rw [hdigits, List.length_append] at h
        omega
      have hlarge : 10 ≤ n / 10 ^ k := by
        by_contra hsmall
        have := (@Nat.length_toDigits_le_iff 10 (n / 10 ^ k) 1 (by decide) (by decide)).2 (by omega)
        omega
      refine ⟨(n / 10 ^ k % 10).digitChar :: rest, ?_, by simp [hlen]⟩
      rw [hdigits, Nat.toDigits_of_base_le (by decide) hlarge, Nat.div_div_eq_div_mul, ← Nat.pow_succ]
      simp

/-! ## Numerals -/

/-- A decimal numeral. -/
structure Numeral where
  negative : Bool
  whole : Nat
  tail : List Char
  /-- The whole part ends where the tail begins. -/
  tail_lt : ∀ c ∈ tail.head?, c < '0'

namespace Numeral

variable {c v : Numeral}

/-- The number of digits of the whole part. -/
def width (n : Numeral) : Nat := (Nat.toDigits 10 n.whole).length

/-- The numeral without its sign. -/
def magnitude (n : Numeral) : List Char := Nat.toDigits 10 n.whole ++ n.tail

/-- The numeral as it is written. -/
def text (n : Numeral) : String :=
  .ofList (if n.negative then '-' :: n.magnitude else n.magnitude)

/-- The digits of `c` do not come after those of `v`.  Whole parts of one width compare
as numbers.  Of two widths, the shorter is compared with the leading digits of the
longer, and where these agree the shorter comes first. -/
def MagnitudeLe (c v : Numeral) : Prop :=
  if c.width = v.width then c.whole < v.whole ∨ c.whole = v.whole ∧ c.tail ≤ v.tail
  else if c.width < v.width then c.whole ≤ v.whole / 10 ^ (v.width - c.width)
  else c.whole / 10 ^ (c.width - v.width) < v.whole

/-- The text of `c` is not after the text of `v`, by their signs and digits. -/
def Precedes (c v : Numeral) : Prop :=
  match c.negative, v.negative with
  | true, false => True
  | false, true => False
  | _, _ => c.MagnitudeLe v

theorem width_pos (n : Numeral) : 0 < n.width := Nat.length_toDigits_pos

/-- What follows the leading digits of the longer comes after every tail. -/
theorem tail_lt_rest {k : Nat} {rest : List Char} (hk : 0 < k) (hlen : rest.length = k)
    (hdigits : ∃ m : Nat, rest <:+ Nat.toDigits 10 m) (n : Numeral) (s : List Char) :
    n.tail < rest ++ s := by
  obtain ⟨m, hsuffix⟩ := hdigits
  cases rest with
  | nil =>
      rw [← hlen] at hk
      cases hk
  | cons d rest =>
      cases htail : n.tail with
      | nil => exact List.nil_lt_cons _ _
      | cons a tail =>
          have ha := n.tail_lt a (by rw [htail]; rfl)
          have hd := Nat.isDigit_of_mem_toDigits (by decide) (by decide)
            (hsuffix.subset List.mem_cons_self)
          rw [List.cons_append, List.cons_lt_cons_iff]
          exact .inl (lt_of_lt_of_le ha (zero_le_of_isDigit hd))

theorem magnitude_le_iff (c v : Numeral) : c.magnitude ≤ v.magnitude ↔ c.MagnitudeLe v := by
  unfold MagnitudeLe magnitude
  split
  · next heq => exact toDigits_append_le_iff heq
  · next hne =>
      split
      · next hlt =>
          have hk : v.width - c.width < v.width := by
            have := c.width_pos
            omega
          obtain ⟨rest, hdigits, hlen⟩ := toDigits_leading hk
          have hsame : (Nat.toDigits 10 c.whole).length =
              (Nat.toDigits 10 (v.whole / 10 ^ (v.width - c.width))).length := by
            have := congrArg List.length hdigits
            rw [List.length_append, hlen] at this
            unfold width at *
            omega
          have htail := tail_lt_rest (by omega) hlen ⟨v.whole, _, hdigits.symm⟩ c v.tail
          rw [hdigits, List.append_assoc, toDigits_append_le_iff hsame]
          have := htail.le
          simp only [this, and_true]
          omega
      · next hge =>
          have hk : c.width - v.width < c.width := by
            have := v.width_pos
            omega
          obtain ⟨rest, hdigits, hlen⟩ := toDigits_leading hk
          have hsame : (Nat.toDigits 10 (c.whole / 10 ^ (c.width - v.width))).length =
              (Nat.toDigits 10 v.whole).length := by
            have := congrArg List.length hdigits
            rw [List.length_append, hlen] at this
            unfold width at *
            omega
          have htail := tail_lt_rest (by omega) hlen ⟨c.whole, _, hdigits.symm⟩ v c.tail
          rw [hdigits, List.append_assoc, toDigits_append_le_iff hsame]
          simp only [not_le.2 htail, and_false, or_false]

theorem minus_lt_magnitude (n : Numeral) (s : List Char) : '-' :: s < n.magnitude := by
  unfold magnitude
  cases hdigits : Nat.toDigits 10 n.whole with
  | nil => exact absurd hdigits Nat.toDigits_ne_nil
  | cons d digits =>
      have hd := Nat.isDigit_of_mem_toDigits (b := 10) (n := n.whole) (c := d) (by decide) (by decide)
        (by rw [hdigits]; exact List.mem_cons_self)
      rw [List.cons_append, List.cons_lt_cons_iff]
      exact .inl (lt_of_lt_of_le (by decide) (zero_le_of_isDigit hd))

/-- The text order of numerals, by their digits. -/
theorem text_le_iff (c v : Numeral) : c.text ≤ v.text ↔ c.Precedes v := by
  unfold text Precedes
  rw [String.le_iff_toList_le, String.toList_ofList, String.toList_ofList]
  cases c.negative <;> cases v.negative
  · simpa using magnitude_le_iff c v
  · simpa using not_le.2 (c.minus_lt_magnitude _)
  · simpa using (v.minus_lt_magnitude _).le
  · simpa using (append_le_append_iff ['-'] c.magnitude v.magnitude).trans (magnitude_le_iff c v)

end Numeral

/-! ## Exact numerals -/

/-- The number that the digits after the point stand for. -/
def fraction : List Char → ℚ
  | [] => 0
  | c :: cs => ((c.toNat - '0'.toNat : ℕ) + fraction cs) / 10

/-- The digits after a point as they are written: at least one, and no zero at the end of
more than one. -/
structure FractionDigits (cs : List Char) : Prop where
  digits : ∀ c ∈ cs, c.isDigit = true
  nonempty : cs ≠ []
  last : 1 < cs.length → cs.getLast? ≠ some '0'

/-- Digits with no zero at the end. -/
structure Trimmed (cs : List Char) : Prop where
  digits : ∀ c ∈ cs, c.isDigit = true
  last : cs.getLast? ≠ some '0'

theorem digit_le_nine {c : Char} (hc : c.isDigit = true) : c.toNat - '0'.toNat ≤ 9 := by
  simp only [Char.isDigit, Bool.and_eq_true, decide_eq_true_eq] at hc
  have hnine : c.toNat ≤ 57 := hc.2
  have hzero : '0'.toNat = 48 := rfl
  omega

theorem fraction_nonneg (cs : List Char) : 0 ≤ fraction cs := by
  induction cs with
  | nil => exact le_rfl
  | cons c cs ih =>
      rw [fraction]
      positivity

theorem fraction_lt_one {cs : List Char} (h : ∀ c ∈ cs, c.isDigit = true) : fraction cs < 1 := by
  induction cs with
  | nil => exact zero_lt_one
  | cons c cs ih =>
      have hc : ((c.toNat - '0'.toNat : ℕ) : ℚ) ≤ 9 := by
        exact_mod_cast digit_le_nine (h c List.mem_cons_self)
      have := ih fun d hd => h d (List.mem_cons_of_mem _ hd)
      rw [fraction]
      linarith

theorem Trimmed.tail {c : Char} {cs : List Char} (h : Trimmed (c :: cs)) : Trimmed cs where
  digits d hd := h.digits d (List.mem_cons_of_mem _ hd)
  last hlast := h.last (by
    cases cs with
    | nil => cases hlast
    | cons d cs => rwa [List.getLast?_cons_cons])

namespace Numeral

variable {n c v : Numeral} {p q : ℚ}

/-- The numeral is the number `q`, with no digit left out. -/
structure Denotes (n : Numeral) (q : ℚ) : Prop where
  sign : n.negative = decide (q < 0)
  exact : ∃ cs, n.tail = '.' :: cs ∧ FractionDigits cs ∧ |q| = n.whole + fraction cs

theorem Denotes.floor (h : n.Denotes q) : (n.whole : ℚ) ≤ |q| ∧ |q| < n.whole + 1 := by
  obtain ⟨cs, -, hcs, habs⟩ := h.exact
  have hnonneg := fraction_nonneg cs
  have hone := fraction_lt_one hcs.digits
  exact ⟨by linarith, by linarith⟩

end Numeral

end Data
