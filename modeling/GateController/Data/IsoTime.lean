import Mathlib.Tactic.Common
import Mathlib.Algebra.Ring.Nat
import Mathlib.Data.Fin.Basic
import Mathlib.Data.Int.Cast.Basic

/-!
# Instants and their ISO 8601 text

An instant is a number of microseconds since 0001-01-01T00:00:00 UTC, up to the
end of the year 9999.  Its text is that of a UTC datetime,
`YYYY-MM-DDTHH:MM:SS.ffffff+00:00`, where the fraction is left out when it is
zero.  The calendar is the proleptic Gregorian one, and `yearDay` finds the year
as the cycles of 400, 100, 4 and 1 years do.

`parse_format` says that reading the text gives the instant back.
-/

namespace Data

/-! ## The calendar -/

/-- Whether a year has 366 days. -/
def leapYear (y : Nat) : Bool := y % 4 == 0 && (y % 100 != 0 || y % 400 == 0)

/-- The days before the first of January of a year, from the year 1. -/
def daysBeforeYear (y : Nat) : Nat := (y - 1) * 365 + (y - 1) / 4 - (y - 1) / 100 + (y - 1) / 400

/-- The lengths of the months. -/
def monthLengths (leap : Bool) : List Nat :=
  [31, if leap then 29 else 28, 31, 30, 31, 30, 31, 31, 30, 31, 30, 31]

/-- The days before the first of a month. -/
def daysBeforeMonth (leap : Bool) (m : Nat) : Nat := ((monthLengths leap).take (m - 1)).sum

/-- The days of a month, none for a number that is no month. -/
def daysInMonth (leap : Bool) (m : Nat) : Nat :=
  if m = 0 then 0 else (monthLengths leap).getD (m - 1) 0

/-- The year of a day, counted from 0001-01-01, and the day's number in it.  The
last day of a cycle of four or of four hundred years would start a fifth part,
and belongs to the fourth. -/
def yearDay (n : Nat) : Nat × Nat :=
  let n400 := n / 146097
  let n100 := n % 146097 / 36524
  let n4 := n % 146097 % 36524 / 1461
  let n1 := n % 146097 % 36524 % 1461 / 365
  let year := 400 * n400 + 100 * n100 + 4 * n4 + n1 + 1
  if n1 = 4 ∨ n100 = 4 then (year - 1, 365)
  else (year, n % 146097 % 36524 % 1461 % 365)

/-- The month of the day with a number in the year: an estimate, one too high at most. -/
def monthOfDay (leap : Bool) (r : Nat) : Nat :=
  let m := (r + 50) / 32
  if r < daysBeforeMonth leap m then m - 1 else m

/-- Year, month and day of the month. -/
def civil (n : Nat) : Nat × Nat × Nat :=
  let (y, r) := yearDay n
  let m := monthOfDay (leapYear y) r
  (y, m, r - daysBeforeMonth (leapYear y) m + 1)

/-- The day of a date, counted from 0001-01-01. -/
def dayOfCivil (y m d : Nat) : Nat := daysBeforeYear y + daysBeforeMonth (leapYear y) m + d - 1

/-- The days before a year, from the cycles it is made of. -/
theorem daysBeforeYear_cycles (a b c d : Nat) (hb : b ≤ 3) (hc : c ≤ 24) (hd : d ≤ 3) :
    daysBeforeYear (400 * a + 100 * b + 4 * c + d + 1) =
      146097 * a + 36524 * b + 1461 * c + 365 * d := by
  have h4 : (400 * a + 100 * b + 4 * c + d) / 4 = 100 * a + 25 * b + c := by omega
  have h100 : (400 * a + 100 * b + 4 * c + d) / 100 = 4 * a + b := by omega
  have h400 : (400 * a + 100 * b + 4 * c + d) / 400 = a := by omega
  simp only [daysBeforeYear, Nat.add_sub_cancel, h4, h100, h400]
  omega

theorem daysBeforeYear_yearDay (n : Nat) : daysBeforeYear (yearDay n).1 + (yearDay n).2 = n := by
  unfold yearDay
  dsimp only
  split
  · next hlast =>
    dsimp only
    by_cases h100 : n % 146097 / 36524 = 4
    · have h := daysBeforeYear_cycles (n / 146097) 3 24 3 (by omega) (by omega) (by omega)
      rw [show 400 * (n / 146097) + 100 * (n % 146097 / 36524) +
        4 * (n % 146097 % 36524 / 1461) + n % 146097 % 36524 % 1461 / 365 + 1 - 1 =
        400 * (n / 146097) + 100 * 3 + 4 * 24 + 3 + 1 by omega, h]
      omega
    · have h := daysBeforeYear_cycles (n / 146097) (n % 146097 / 36524)
        (n % 146097 % 36524 / 1461) 3 (by omega) (by omega) (by omega)
      rw [show 400 * (n / 146097) + 100 * (n % 146097 / 36524) +
        4 * (n % 146097 % 36524 / 1461) + n % 146097 % 36524 % 1461 / 365 + 1 - 1 =
        400 * (n / 146097) + 100 * (n % 146097 / 36524) + 4 * (n % 146097 % 36524 / 1461) +
          3 + 1 by omega, h]
      omega
  · next hinner =>
    dsimp only
    rw [daysBeforeYear_cycles _ _ _ _ (by omega) (by omega) (by omega)]
    omega

theorem yearDay_pos (n : Nat) : 1 ≤ (yearDay n).1 := by
  unfold yearDay
  dsimp only
  split <;> dsimp only <;> omega

theorem yearDay_day_lt (n : Nat) :
    (yearDay n).2 < 365 + if leapYear (yearDay n).1 then 1 else 0 := by
  have hleap : (yearDay n).2 < 365 ∨ (yearDay n).2 = 365 ∧ leapYear (yearDay n).1 = true := by
    unfold yearDay leapYear
    dsimp only
    split
    · right
      refine ⟨rfl, ?_⟩
      simp only [Bool.and_eq_true, beq_iff_eq, Bool.or_eq_true, bne_iff_ne]
      omega
    · left
      dsimp only
      omega
  rcases hleap with h | ⟨h1, h2⟩
  · omega
  · rw [h1, h2]
    decide

/-- The month found has the day in it. -/
theorem monthOfDay_spec : ∀ (leap : Bool) (r : Nat), r < 365 + (if leap then 1 else 0) →
    monthOfDay leap r ≤ 12 ∧ daysBeforeMonth leap (monthOfDay leap r) ≤ r ∧
      r - daysBeforeMonth leap (monthOfDay leap r) < daysInMonth leap (monthOfDay leap r) := by
  decide +kernel

theorem daysInMonth_le : ∀ (leap : Bool) (m : Nat), m < 13 → daysInMonth leap m ≤ 31 := by
  decide

theorem civil_spec (n : Nat) : (civil n).2.1 ≤ 12 ∧ 1 ≤ (civil n).2.2 ∧
    (civil n).2.2 ≤ daysInMonth (leapYear (civil n).1) (civil n).2.1 := by
  obtain ⟨h1, -, h3⟩ := monthOfDay_spec (leapYear (yearDay n).1) (yearDay n).2 (yearDay_day_lt n)
  exact ⟨h1, by simp [civil], by simp only [civil]; omega⟩

theorem dayOfCivil_civil (n : Nat) :
    dayOfCivil (civil n).1 (civil n).2.1 (civil n).2.2 = n := by
  obtain ⟨-, h, -⟩ := monthOfDay_spec (leapYear (yearDay n).1) (yearDay n).2 (yearDay_day_lt n)
  have := daysBeforeYear_yearDay n
  simp only [civil, dayOfCivil]
  omega

/-- The days from 0001-01-01 to 9999-12-31. -/
def maxDays : Nat := 3652059

theorem civil_year_lt {n : Nat} (h : n < maxDays) : (civil n).1 < 10000 := by
  have h1 := daysBeforeYear_yearDay n
  have h2 : (civil n).1 = (yearDay n).1 := rfl
  unfold maxDays at h
  unfold daysBeforeYear at h1
  omega

/-! ## Decimal fields of fixed width -/

/-- The character of a decimal digit. -/
def digitChar (n : Nat) : Char := Char.ofNat (48 + n)

/-- The digit of a character. -/
def charDigit (c : Char) : Option Nat :=
  if 48 ≤ c.toNat ∧ c.toNat ≤ 57 then some (c.toNat - 48) else none

theorem charDigit_digitChar : ∀ n < 10, charDigit (digitChar n) = some n := by decide

/-- The last `k` digits of a number, with leading zeros. -/
def padded : Nat → Nat → List Char
  | 0, _ => []
  | k + 1, n => padded k (n / 10) ++ [digitChar (n % 10)]

/-- The number that digits denote after `acc`. -/
def readDigits : List Char → Nat → Option Nat
  | [], acc => some acc
  | c :: cs, acc => do readDigits cs (10 * acc + (← charDigit c))

theorem length_padded (k n : Nat) : (padded k n).length = k := by
  induction k generalizing n with
  | zero => rfl
  | succ k ih => simp [padded, ih]

theorem readDigits_append (l₁ l₂ : List Char) (acc : Nat) :
    readDigits (l₁ ++ l₂) acc = (readDigits l₁ acc).bind (readDigits l₂) := by
  induction l₁ generalizing acc with
  | nil => rfl
  | cons c cs ih =>
      cases h : charDigit c with
      | none => simp [readDigits, h]
      | some d => simp [readDigits, h, ih]

theorem readDigits_padded (k n acc : Nat) (h : n < 10 ^ k) :
    readDigits (padded k n) acc = some (10 ^ k * acc + n) := by
  induction k generalizing n with
  | zero =>
      have hn : n = 0 := by simpa using h
      simp [padded, readDigits, hn]
  | succ k ih =>
      have hd := charDigit_digitChar (n % 10) (by omega)
      have hlt : n / 10 < 10 ^ k := by rw [Nat.pow_succ] at h; omega
      rw [padded, readDigits_append, ih (n / 10) hlt]
      simp only [Option.bind_some, readDigits, hd, Option.bind_eq_bind, Option.some.injEq]
      have hpow : 10 * (10 ^ k * acc) = 10 ^ (k + 1) * acc := by
        rw [Nat.pow_succ, ← Nat.mul_assoc, Nat.mul_comm 10 (10 ^ k)]
      omega

/-! ## Instants -/

/-- The microseconds of a day. -/
def dayMicros : Nat := 86400000000

/-- The number of instants a datetime can denote. -/
def instants : Nat := maxDays * dayMicros

theorem instants_eq : instants = dayMicros * maxDays := Nat.mul_comm _ _

/-- Microseconds since 0001-01-01T00:00:00 UTC. -/
abbrev Instant := Fin instants

instance : NeZero instants := ⟨by decide⟩

/-- The fraction of a second, as `isoformat` writes it. -/
def fractionText (us : Nat) : List Char := if us = 0 then [] else '.' :: padded 6 us

/-- The text of an instant, as the characters of `isoformat()` in UTC. -/
def Instant.chars (t : Instant) : List Char :=
  let date := civil (t.val / dayMicros)
  let r := t.val % dayMicros
  padded 4 date.1 ++ '-' :: padded 2 date.2.1 ++ '-' :: padded 2 date.2.2 ++
    'T' :: padded 2 (r / 3600000000) ++ ':' :: padded 2 (r / 60000000 % 60) ++
    ':' :: padded 2 (r / 1000000 % 60) ++ fractionText (r % 1000000) ++ ['+', '0', '0', ':', '0', '0']

/-- `isoformat()` of the instant as a UTC datetime. -/
def Instant.isoformat (t : Instant) : String := String.ofList t.chars

/-- The instant with a number of microseconds, if it is in range. -/
def instantOf? (micros : Int) : Option Instant :=
  if h : micros.toNat < instants then
    if 0 ≤ micros then some ⟨micros.toNat, h⟩ else none
  else none

theorem instantOf?_val (t : Instant) {micros : Int} (h : micros = t.val) :
    instantOf? micros = some t := by
  have hnat : micros.toNat = t.val := by rw [h, Int.toNat_natCast]
  have hlt : micros.toNat < instants := hnat ▸ t.isLt
  rw [instantOf?, dif_pos hlt, if_pos (by omega)]
  exact congrArg some (Fin.ext hnat)

/-- A datetime that has an instant in UTC.  A naive one, without an offset from
UTC in minutes, is taken to be in UTC already. -/
structure DateTime where
  utc : Instant
  offset : Option Int
deriving DecidableEq

/-! ## Reading the text -/

/-- Read a decimal field of fixed width. -/
def takeDigits (k : Nat) (l : List Char) : Option (Nat × List Char) :=
  if l.length < k then none else (readDigits (l.take k) 0).map (·, l.drop k)

/-- Read one given character. -/
def takeChar (c : Char) : List Char → Option (List Char)
  | [] => none
  | d :: rest => if d = c then some rest else none

/-- Read `HH:MM`, in minutes. -/
def takeMinutes (l : List Char) : Option (Nat × List Char) := do
  let (hh, l) ← takeDigits 2 l
  let l ← takeChar ':' l
  let (mm, l) ← takeDigits 2 l
  if hh < 24 ∧ mm < 60 then some (60 * hh + mm, l) else none

/-- Read a date, as a day counted from 0001-01-01. -/
def takeDate (l : List Char) : Option (Nat × List Char) := do
  let (y, l) ← takeDigits 4 l
  let l ← takeChar '-' l
  let (m, l) ← takeDigits 2 l
  let l ← takeChar '-' l
  let (d, l) ← takeDigits 2 l
  if 1 ≤ y ∧ 1 ≤ d ∧ d ≤ daysInMonth (leapYear y) m then some (dayOfCivil y m d, l) else none

/-- Read `HH:MM:SS` with an optional fraction of six digits, in microseconds. -/
def takeTime (l : List Char) : Option (Nat × List Char) := do
  let (minutes, l) ← takeMinutes l
  let l ← takeChar ':' l
  let (ss, l) ← takeDigits 2 l
  if ss < 60 then
    match takeChar '.' l with
    | none => some ((60 * minutes + ss) * 1000000, l)
    | some l => do
        let (us, l) ← takeDigits 6 l
        some ((60 * minutes + ss) * 1000000 + us, l)
  else none

/-- Read the offset from UTC that ends the text. -/
def takeOffset : List Char → Option (Option Int)
  | [] => some none
  | '+' :: l => do
      let (minutes, rest) ← takeMinutes l
      if rest = [] then some (some minutes) else none
  | '-' :: l => do
      let (minutes, rest) ← takeMinutes l
      if rest = [] then some (some (-minutes)) else none
  | _ => none

/-- `datetime.fromisoformat` on the forms that `isoformat` writes, with any
separator between date and time.  A datetime whose instant falls outside the
range of UTC datetimes is not read. -/
def fromisoformat (text : String) : Option DateTime := do
  let date ← takeDate text.toList
  let time ← takeTime (date.2.drop 1)
  let offset ← takeOffset time.2
  let utc ← instantOf? (date.1 * dayMicros + time.1 - offset.getD 0 * 60000000)
  some ⟨utc, offset⟩

theorem takeDigits_padded {k n : Nat} (h : n < 10 ^ k) (rest : List Char) :
    takeDigits k (padded k n ++ rest) = some (n, rest) := by
  have hlen := length_padded k n
  have htake : (padded k n ++ rest).take k = padded k n := by
    rw [List.take_append_of_le_length (by omega), List.take_of_length_le (by omega)]
  have hdrop : (padded k n ++ rest).drop k = rest := by
    rw [List.drop_append_of_le_length (by omega), List.drop_of_length_le (by omega),
      List.nil_append]
  have hread := readDigits_padded k n 0 h
  rw [takeDigits, if_neg (by simp [hlen]), htake, hdrop, hread]
  simp

@[simp] theorem takeChar_self (c : Char) (rest : List Char) :
    takeChar c (c :: rest) = some rest := by
  simp [takeChar]

theorem takeMinutes_padded (minutes : Nat) (h : minutes < 1440) (rest : List Char) :
    takeMinutes (padded 2 (minutes / 60) ++ ':' :: (padded 2 (minutes % 60) ++ rest)) =
      some (minutes, rest) := by
  have h1 := takeDigits_padded (k := 2) (n := minutes / 60) (by omega)
  have h2 := takeDigits_padded (k := 2) (n := minutes % 60) (by omega)
  simp only [takeMinutes, h1, h2, takeChar_self, Option.bind_eq_bind, Option.bind_some]
  rw [if_pos (by omega)]
  simp only [Option.some.injEq, Prod.mk.injEq, and_true]
  omega

theorem takeDate_civil {n : Nat} (h : n < maxDays) (rest : List Char) :
    takeDate (padded 4 (civil n).1 ++ '-' :: (padded 2 (civil n).2.1 ++
      '-' :: (padded 2 (civil n).2.2 ++ rest))) = some (n, rest) := by
  obtain ⟨hm, hd1, hd2⟩ := civil_spec n
  have hle := daysInMonth_le (leapYear (civil n).1) (civil n).2.1 (by omega)
  have hpos : 1 ≤ (civil n).1 := yearDay_pos n
  have h1 := takeDigits_padded (k := 4) (n := (civil n).1) (civil_year_lt h)
  have h2 := takeDigits_padded (k := 2) (n := (civil n).2.1) (by omega)
  have h3 := takeDigits_padded (k := 2) (n := (civil n).2.2) (by omega)
  simp only [takeDate, h1, h2, h3, takeChar_self, Option.bind_eq_bind, Option.bind_some]
  rw [if_pos ⟨hpos, hd1, hd2⟩, dayOfCivil_civil]

/-- The time of a day is read back, also without its fraction. -/
theorem takeTime_padded {r : Nat} (h : r < dayMicros) (rest : List Char)
    (hrest : takeChar '.' rest = none) :
    takeTime (padded 2 (r / 3600000000) ++ ':' :: (padded 2 (r / 60000000 % 60) ++
      ':' :: (padded 2 (r / 1000000 % 60) ++ (fractionText (r % 1000000) ++ rest)))) =
      some (r, rest) := by
  unfold dayMicros at h
  have hmin := fun rest => takeMinutes_padded (r / 60000000) (by omega) rest
  have hdiv : r / 60000000 / 60 = r / 3600000000 := by omega
  have hsec := takeDigits_padded (k := 2) (n := r / 1000000 % 60) (by omega)
  rw [hdiv] at hmin
  simp only [takeTime, hmin, hsec, takeChar_self, Option.bind_eq_bind, Option.bind_some]
  rw [if_pos (by omega)]
  by_cases hus : r % 1000000 = 0
  · simp only [fractionText, hus, if_true, List.nil_append, hrest, Option.some.injEq,
      Prod.mk.injEq, and_true]
    omega
  · have hfrac := takeDigits_padded (k := 6) (n := r % 1000000) (by omega)
    simp only [fractionText, hus, if_false, List.cons_append, takeChar_self, hfrac,
      Option.bind_some, Option.some.injEq, Prod.mk.injEq, and_true]
    omega

theorem Instant.toList_isoformat (t : Instant) : t.isoformat.toList =
    padded 4 (civil (t.val / dayMicros)).1 ++ '-' :: (padded 2 (civil (t.val / dayMicros)).2.1 ++
      '-' :: (padded 2 (civil (t.val / dayMicros)).2.2 ++ 'T' ::
      (padded 2 (t.val % dayMicros / 3600000000) ++
      ':' :: (padded 2 (t.val % dayMicros / 60000000 % 60) ++
      ':' :: (padded 2 (t.val % dayMicros / 1000000 % 60) ++
      (fractionText (t.val % dayMicros % 1000000) ++ ['+', '0', '0', ':', '0', '0'])))))) := by
  simp only [Instant.isoformat, Instant.chars, String.toList_ofList, List.append_assoc,
    List.cons_append]

/-- Reading the text of an instant gives the instant, in UTC. -/
theorem parse_format (t : Instant) : fromisoformat t.isoformat = some ⟨t, some 0⟩ := by
  have hday : t.val / dayMicros < maxDays := Nat.div_lt_of_lt_mul (t.isLt.trans_eq instants_eq)
  have htime : t.val % dayMicros < dayMicros := Nat.mod_lt _ (by decide)
  have hdate := takeDate_civil hday
  have hclock := takeTime_padded htime ['+', '0', '0', ':', '0', '0'] (by decide)
  have hoffset : takeOffset ['+', '0', '0', ':', '0', '0'] = some (some 0) := by decide
  have hmicros : ((t.val / dayMicros : Nat) : Int) * dayMicros + (t.val % dayMicros : Nat)
      - (some 0).getD 0 * 60000000 = t.val := by
    have hsum : t.val / dayMicros * dayMicros + t.val % dayMicros = t.val := Nat.div_add_mod' _ _
    rw [Option.getD_some, Int.zero_mul, Int.sub_zero]
    exact_mod_cast hsum
  rw [fromisoformat, Instant.toList_isoformat, hdate, Option.bind_eq_bind, Option.bind_some,
    List.drop_one, List.tail_cons, hclock, Option.bind_eq_bind, Option.bind_some, hoffset,
    Option.bind_eq_bind, Option.bind_some, instantOf?_val t hmicros, Option.bind_some]

end Data
