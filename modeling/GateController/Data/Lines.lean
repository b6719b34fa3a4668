import GateController.Data.Text

/-!
# Lines

`str.splitlines` breaks a text at more places than line feeds, and `str.partition` cuts a
line at the first separator.
-/

namespace Data

namespace Lines

/-- Where `splitlines` breaks. -/
def isBreak (c : Char) : Bool :=
  let n := c.toNat
  (10 ≤ n && n ≤ 13) || (28 ≤ n && n ≤ 30) || n == 133 || n == 8232 || n == 8233

/-- `splitlines()`, each line with what ends it.  A carriage return and a line feed end one
line together. -/
def splitLines : List Char → List (List Char × List Char)
  | [] => []
  | c :: rest =>
      match splitLines rest with
      | [] => if isBreak c then [([], [c])] else [([c], [])]
      | (line, ending) :: more =>
          if c = '\r' ∧ rest.head? = some '\n' then (line, c :: ending) :: more
          else if isBreak c then ([], [c]) :: (line, ending) :: more
          else (c :: line, ending) :: more

/-- The lines of a text that every character of a kind ends. -/
def linesAt (isEnd : Char → Bool) : List Char → List (List Char)
  | [] => []
  | c :: rest =>
      if isEnd c then [] :: linesAt isEnd rest
      else
        match linesAt isEnd rest with
        | [] => [[c]]
        | line :: more => (c :: line) :: more

/-- `partition`: what is before the separator, and what is after it if it is there. -/
def partition (separator : Char) (line : List Char) : List Char × Option (List Char) :=
  (line.takeWhile (· != separator),
    match line.dropWhile (· != separator) with
    | [] => none
    | _ :: value => some value)

/-- A line breaks at white space only. -/
theorem isSpace_of_isBreak {c : Char} (h : isBreak c = true) : Text.isSpace c = true := by
  simp only [isBreak, Text.isSpace, Bool.or_eq_true, Bool.and_eq_true, decide_eq_true_eq,
    beq_iff_eq] at h ⊢
  omega

/-- A text without white space has no break. -/
theorem not_isBreak {line : List Char} (h : ∀ c ∈ line, Text.isSpace c = false) :
    ∀ c ∈ line, isBreak c = false := by
  intro c hc
  cases hbreak : isBreak c with
  | false => rfl
  | true => exact (isSpace_of_isBreak hbreak).symm.trans (h c hc)

/-- A line feed is a line of its own. -/
theorem splitLines_newline (rest : List Char) :
    splitLines ('\n' :: rest) = ([], ['\n']) :: splitLines rest := by
  rw [splitLines]
  split
  next h => rw [if_pos (by decide), h]
  next line ending more h =>
    rw [if_neg (by simp), if_pos (by decide), h]

/-- A line that ends with a line feed is the first. -/
theorem splitLines_append {line : List Char} (h : ∀ c ∈ line, isBreak c = false)
    (rest : List Char) :
    splitLines (line ++ '\n' :: rest) = (line, ['\n']) :: splitLines rest := by
  induction line with
  | nil => exact splitLines_newline rest
  | cons c line ih =>
      have hbreak := h c List.mem_cons_self
      have hreturn : c ≠ '\r' := by
        rintro rfl
        cases hbreak
      rw [List.cons_append, splitLines, ih fun d hd => h d (List.mem_cons_of_mem c hd)]
      simp [hreturn, hbreak]

/-- A separator that is not in the key stands between the key and the value. -/
theorem partition_append {separator : Char} {key : List Char} (h : separator ∉ key)
    (value : List Char) :
    partition separator (key ++ separator :: value) = (key, some value) := by
  have hkey : ∀ c ∈ key, (c != separator) = true := by
    intro c hc
    exact bne_iff_ne.2 fun heq => h (heq ▸ hc)
  rw [partition, List.takeWhile_append_of_pos hkey, List.dropWhile_append_of_pos hkey]
  simp

/-- A line is cut in two only where the separator first stands. -/
theorem partition_eq_iff {separator : Char} {line key value : List Char} :
    partition separator line = (key, some value) ↔
      separator ∉ key ∧ line = key ++ separator :: value := by
  constructor
  · intro h
    obtain ⟨hkey, hvalue⟩ := Prod.mk.inj h
    have habsent : separator ∉ key := by
      intro hmem
      rw [← hkey] at hmem
      simpa using List.all_eq_true.1 List.all_takeWhile separator hmem
    refine ⟨habsent, ?_⟩
    have hsplit := List.takeWhile_append_dropWhile (p := (· != separator)) (l := line)
    split at hvalue
    next => cases hvalue
    next c rest hdrop =>
      have hc := List.head?_dropWhile_not (· != separator) line
      rw [hdrop] at hc
      have hsame : c = separator := by simpa using hc
      cases hvalue
      rw [← hsplit, hkey, hdrop, hsame]
  · rintro ⟨habsent, rfl⟩
    exact partition_append habsent value

/-! ## Lines by their ends -/

section LinesAt

variable {isEnd isEnd' : Char → Bool} {text : List Char}

/-- Without carriage returns, `splitlines` breaks at single characters. -/
theorem splitLines_eq_linesAt (h : ∀ c ∈ text, c ≠ '\r') :
    (splitLines text).map Prod.fst = linesAt isBreak text := by
  induction text with
  | nil => rfl
  | cons c rest ih =>
      have hc := h c List.mem_cons_self
      have ih := ih fun d hd => h d (List.mem_cons_of_mem c hd)
      rw [linesAt, ← ih, splitLines]
      cases splitLines rest with
      | nil =>
          dsimp only [List.map_nil]
          split
          next => rfl
          next => rfl
      | cons first more =>
          dsimp only [List.map_cons]
          rw [if_neg fun hreturn => hc hreturn.1]
          split
          next => rfl
          next => rfl

/-- Characters may be exchanged, if the ends of the lines stay where they are and nothing else
changes. -/
theorem linesAt_map {f : Char → Char}
    (h : ∀ c ∈ text, isEnd' (f c) = isEnd c ∧ (isEnd c = false → f c = c)) :
    linesAt isEnd' (text.map f) = linesAt isEnd text := by
  induction text with
  | nil => rfl
  | cons c rest ih =>
      obtain ⟨hend, hsame⟩ := h c List.mem_cons_self
      rw [List.map_cons, linesAt, linesAt, hend, ih fun d hd => h d (List.mem_cons_of_mem c hd)]
      split
      next => rfl
      next hnot => rw [hsame (by simpa using hnot)]

/-- The characters of the lines are those that end none. -/
theorem forall_mem_linesAt {p : Char → Prop} :
    (∀ line ∈ linesAt isEnd text, ∀ c ∈ line, p c) ↔ ∀ c ∈ text, isEnd c = false → p c := by
  induction text with
  | nil => simp [linesAt]
  | cons c rest ih =>
      rw [List.forall_mem_cons, ← ih, linesAt]
      split
      next hend => simp [hend]
      next hnot =>
        have hnot : isEnd c = false := by simpa using hnot
        split
        next hlines => simp [hlines, hnot]
        next line more hlines =>
          rw [hlines, List.forall_mem_cons, List.forall_mem_cons, List.forall_mem_cons, and_assoc]
          simp [hnot]

end LinesAt

end Lines

end Data
