import Mathlib.Data.List.Infix

/-!
# Texts

The string methods that the code uses, on lists of characters: `strip`, `lower`,
and `re.sub` of a run of characters.
-/

namespace Data

namespace Text

/-- `str.isspace` of a character. -/
def isSpace (c : Char) : Bool :=
  let n := c.toNat
  (9 ≤ n && n ≤ 13) || (28 ≤ n && n ≤ 32) || n == 133 || n == 160 || n == 5760 ||
    (8192 ≤ n && n ≤ 8202) || n == 8232 || n == 8233 || n == 8239 || n == 8287 || n == 12288

/-- Drop from both ends what satisfies a condition. -/
def stripBy (p : Char → Bool) (l : List Char) : List Char :=
  ((l.dropWhile p).reverse.dropWhile p).reverse

/-- `strip()`. -/
def strip (text : String) : String := String.ofList (stripBy isSpace text.toList)

/-- `lower()` of a character, as far as the result is ASCII. -/
def lowerChar (c : Char) : List Char :=
  if c.toNat = 0x130 then ['i', Char.ofNat 0x307]
  else if c.toNat = 0x212A then ['k']
  else [c.toLower]

/-- `lower()`, as far as the result is ASCII. -/
def lower (text : String) : String := String.ofList (text.toList.flatMap lowerChar)

/-- `[a-z0-9]`. -/
def isRuleChar (c : Char) : Bool := c.isLower || c.isDigit

/-- Put one `_` for every run of other characters.  The flag says that a run has begun. -/
def underscored : Bool → List Char → List Char
  | _, [] => []
  | inRun, c :: rest =>
      if isRuleChar c then c :: underscored false rest
      else if inRun then underscored true rest
      else '_' :: underscored true rest

/-- `text in other`. -/
def isIn (text : String) (other : List Char) : Bool := decide (text.toList <:+: other)

/-- `text.split(";", 1)[0]` and the like. -/
def before (c : Char) (text : String) : String := String.ofList (text.toList.takeWhile (· != c))

/-- `isascii()`. -/
def isAscii (text : String) : Bool := text.toList.all fun c => decide (c.toNat < 128)

/-! ## Letters and digits -/

theorem not_isSpace_of_isAlphanum {d : Char} (h : d.isAlphanum = true) :
    isSpace d = false := by
  have hd : d.val.toNat = d.toNat := rfl
  unfold Char.isAlphanum Char.isAlpha Char.isUpper Char.isLower Char.isDigit at h
  simp only [Bool.or_eq_true, Bool.and_eq_true, decide_eq_true_eq, ge_iff_le,
    UInt32.le_iff_toNat_le, hd] at h
  simp only [isSpace, Bool.or_eq_false_iff, Bool.and_eq_false_iff, decide_eq_false_iff_not,
    beq_eq_false_iff_ne]
  simp at h
  omega

theorem isAlphanum_toUpper {c : Char} (h : c.isAlphanum = true) : c.toUpper.isAlphanum = true := by
  unfold Char.toUpper
  split
  next hlower =>
    obtain ⟨ha, hz⟩ := hlower
    unfold Char.isAlphanum Char.isAlpha Char.isUpper
    simp only [Bool.or_eq_true, decide_eq_true_eq, ge_iff_le, UInt32.le_iff_toNat_le] at ha hz ⊢
    refine .inl (.inl ⟨?_, ?_⟩)
    · simp at ha hz ⊢
      omega
    · simp at ha hz ⊢
      omega
  next => exact h

/-- Nothing is taken off a text without white space. -/
theorem strip_of_forall {text : String} (h : ∀ c ∈ text.toList, isSpace c = false) :
    strip text = text := by
  have hdrop : ∀ l : List Char, (∀ c ∈ l, isSpace c = false) → l.dropWhile isSpace = l := by
    intro l hl
    cases l with
    | nil => rfl
    | cons c l => rw [List.dropWhile_cons_of_neg (by simp [hl c List.mem_cons_self])]
  rw [strip, stripBy, hdrop _ h, hdrop _ fun c hc => h c (List.mem_reverse.1 hc),
    List.reverse_reverse, String.ofList_toList]

end Text

end Data
