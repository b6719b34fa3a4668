import Mathlib.Data.List.Basic
import Mathlib.Tactic.Common

/-!
# Reading comma-separated values

`csv.reader` in its default dialect.  It takes the characters of a line one by one and then
the end of the line, and a row is complete when it is back in the state in which rows begin.
A field must not be longer than `field_size_limit()`.

The characters that a reader puts into a field as they are, are `plain`.  `read_lines` is what
it makes of rows of one field of such characters, and `read_overlong` says that it raises on a
field that is too long.
-/

namespace Data

namespace Csv

/-- `csv.field_size_limit()`. -/
def fieldSizeLimit : Nat := 131072

/-- The states of a reader. -/
inductive ReaderState where
  | startRecord
  | startField
  | inField
  | inQuotedField
  | quoteInQuotedField
  | eatCrnl
deriving DecidableEq

/-- A reader: its state, the field that it is in and the fields before it. -/
structure Reader where
  state : ReaderState := .startRecord
  field : List Char := []
  fields : List String := []

/-- The field is complete. -/
def Reader.save (r : Reader) (state : ReaderState) : Reader :=
  { state, field := [], fields := r.fields ++ [String.ofList r.field] }

/-- One character more. -/
def Reader.add (r : Reader) (c : Char) (state : ReaderState) : Except String Reader :=
  if fieldSizeLimit ≤ r.field.length then .error "field larger than field limit (131072)"
  else .ok { r with state, field := r.field ++ [c] }

/-- A line break. -/
def isNewline (c : Char) : Bool := c = '\n' || c = '\r'

/-- At the beginning of a field. -/
def Reader.startField (r : Reader) (c : Char) : Except String Reader :=
  if isNewline c then .ok (r.save .eatCrnl)
  else if c = '"' then .ok { r with state := .inQuotedField }
  else if c = ',' then .ok (r.save .startField)
  else r.add c .inField

/-- A character. -/
def Reader.step (r : Reader) (c : Char) : Except String Reader :=
  match r.state with
  | .startRecord => if isNewline c then .ok { r with state := .eatCrnl } else r.startField c
  | .startField => r.startField c
  | .inField =>
      if isNewline c then .ok (r.save .eatCrnl)
      else if c = ',' then .ok (r.save .startField)
      else r.add c .inField
  | .inQuotedField =>
      if c = '"' then .ok { r with state := .quoteInQuotedField } else r.add c .inQuotedField
  | .quoteInQuotedField =>
      if c = '"' then r.add c .inQuotedField
      else if c = ',' then .ok (r.save .startField)
      else if isNewline c then .ok (r.save .eatCrnl)
      else r.add c .inField
  | .eatCrnl =>
      if isNewline c then .ok r
      else .error ("new-line character seen in unquoted field - " ++
        "do you need to open the file with newline=''?")

/-- The end of a line. -/
def Reader.endLine (r : Reader) : Reader :=
  match r.state with
  | .startRecord => r
  | .inQuotedField => r
  | .eatCrnl => { r with state := .startRecord }
  | _ => r.save .startRecord

/-- The characters of a line. -/
def Reader.feed : Reader → List Char → Except String Reader
  | r, [] => .ok r
  | r, c :: line => do (← r.step c).feed line

/-- The rows of some lines, each with its line break. -/
def readLines : Reader → List (List Char) → Except String (List (List String))
  | r, [] =>
      .ok (if r.field ≠ [] ∨ r.state = .inQuotedField then
        [r.fields ++ [String.ofList r.field]] else [])
  | r, line :: lines => do
      let r := (← r.feed line).endLine
      if r.state = .startRecord then
        return r.fields :: (← readLines {} lines)
      else readLines r lines

/-- The lines of a file that was opened with `newline=""`. -/
def lines : List Char → List (List Char)
  | [] => []
  | '\r' :: '\n' :: rest => ['\r', '\n'] :: lines rest
  | c :: rest =>
      if isNewline c then [c] :: lines rest
      else
        match lines rest with
        | [] => [[c]]
        | line :: more => (c :: line) :: more

/-- `list(csv.reader(source))`. -/
def read (text : String) : Except String (List (List String)) := readLines {} (lines text.toList)

/-! ## Plain fields -/

/-- A character that stands for itself. -/
def plain (c : Char) : Bool := !isNewline c && c != ',' && c != '"'

section Plain

variable {c : Char} {field rest : List Char} {r : Reader}

theorem plain_iff : plain c = true ↔ isNewline c = false ∧ c ≠ ',' ∧ c ≠ '"' := by
  simp [plain, and_assoc]

/-- A plain character is put into the field. -/
theorem step_plain (h : plain c = true)
    (hr : r.state = .startRecord ∨ r.state = .inField) : r.step c = r.add c .inField := by
  obtain ⟨hline, hcomma, hquote⟩ := plain_iff.1 h
  obtain hr | hr := hr
  · simp [Reader.step, Reader.startField, hr, hline, hcomma, hquote]
  · simp [Reader.step, hr, hline, hcomma]

/-- Plain characters that fit are all in the field. -/
theorem feed_plain (hplain : ∀ c ∈ field, plain c = true) (hne : field ≠ [])
    (hr : r.state = .startRecord ∨ r.state = .inField)
    (hfits : r.field.length + field.length ≤ fieldSizeLimit) :
    r.feed (field ++ rest) =
      ({ r with state := .inField, field := r.field ++ field } : Reader).feed rest := by
  induction field generalizing r with
  | nil => exact absurd rfl hne
  | cons c field ih =>
      rw [List.length_cons] at hfits
      have hadd : r.add c .inField =
          .ok { r with state := .inField, field := r.field ++ [c] } := by
        rw [Reader.add, if_neg (by omega)]
      rw [List.cons_append, Reader.feed, step_plain (hplain c List.mem_cons_self) hr, hadd]
      change Reader.feed _ (field ++ rest) = _
      cases field with
      | nil => rfl
      | cons d field =>
          rw [ih (fun e he => hplain e (List.mem_cons_of_mem c he)) (List.cons_ne_nil _ _)
            (.inr rfl) (by rw [List.length_append, List.length_singleton]; omega)]
          rw [List.append_assoc]
          rfl

/-- More plain characters than fit raise. -/
theorem feed_overlong (hplain : ∀ c ∈ field, plain c = true)
    (hr : r.state = .startRecord ∨ r.state = .inField)
    (hstart : r.field.length ≤ fieldSizeLimit)
    (hlong : fieldSizeLimit < r.field.length + field.length) :
    r.feed (field ++ rest) = .error "field larger than field limit (131072)" := by
  induction field generalizing r with
  | nil => exact absurd hlong (Nat.not_lt_of_le hstart)
  | cons c field ih =>
      rw [List.cons_append, Reader.feed, step_plain (hplain c List.mem_cons_self) hr, Reader.add]
      split
      next => rfl
      next hfits =>
        rw [List.length_cons] at hlong
        have hmore : (r.field ++ [c]).length = r.field.length + 1 := List.length_append
        exact ih (fun e he => hplain e (List.mem_cons_of_mem c he)) (.inr rfl)
          (by dsimp only; omega) (by dsimp only; omega)

/-- A line of one plain field. -/
def lineOf (field : List Char) : List Char := field ++ ['\r', '\n']

/-- It is read as a row of this field. -/
theorem feed_lineOf (hplain : ∀ c ∈ field, plain c = true) (hne : field ≠ [])
    (hfits : field.length ≤ fieldSizeLimit) :
    ({} : Reader).feed (lineOf field) = .ok ⟨.eatCrnl, [], [String.ofList field]⟩ := by
  rw [lineOf, feed_plain hplain hne (.inl rfl) (by simpa using hfits)]
  rfl

theorem readLines_lineOf (hplain : ∀ c ∈ field, plain c = true) (hne : field ≠ [])
    (hfits : field.length ≤ fieldSizeLimit) (more : List (List Char)) :
    readLines {} (lineOf field :: more) =
      (readLines {} more).map fun rows => [String.ofList field] :: rows := by
  rw [readLines, feed_lineOf hplain hne hfits]
  simp only [Reader.endLine, Bind.bind, Except.bind, if_true]
  cases readLines {} more with
  | error x => rfl
  | ok rows => rfl

/-- Lines of plain fields are read as rows of one field each. -/
theorem readLines_map {fields : List (List Char)}
    (hplain : ∀ field ∈ fields, ∀ c ∈ field, plain c = true) (hne : ∀ field ∈ fields, field ≠ [])
    (hfits : ∀ field ∈ fields, field.length ≤ fieldSizeLimit) :
    readLines {} (fields.map lineOf) = .ok (fields.map fun field => [String.ofList field]) := by
  induction fields with
  | nil => rfl
  | cons field fields ih =>
      rw [List.map_cons, readLines_lineOf (hplain field List.mem_cons_self)
        (hne field List.mem_cons_self) (hfits field List.mem_cons_self),
        ih (fun f hf => hplain f (List.mem_cons_of_mem field hf))
          (fun f hf => hne f (List.mem_cons_of_mem field hf))
          (fun f hf => hfits f (List.mem_cons_of_mem field hf))]
      rfl

/-- A field that is too long raises. -/
theorem readLines_overlong {field : List Char} (hplain : ∀ c ∈ field, plain c = true)
    (hlong : fieldSizeLimit < field.length) (more : List (List Char)) :
    readLines {} (lineOf field :: more) = .error "field larger than field limit (131072)" := by
  rw [readLines, lineOf, feed_overlong hplain (.inl rfl) (Nat.zero_le _) (by simpa using hlong)]
  rfl

theorem lines_lineOf (hplain : ∀ c ∈ field, isNewline c = false) (more : List Char) :
    lines (lineOf field ++ more) = lineOf field :: lines more := by
  induction field with
  | nil =>
      change lines ('\r' :: '\n' :: more) = _
      rw [lines]
      rfl
  | cons c field ih =>
      have hc := hplain c List.mem_cons_self
      have hrest := ih fun d hd => hplain d (List.mem_cons_of_mem c hd)
      change lines (c :: (lineOf field ++ more)) = (c :: lineOf field) :: lines more
      rw [lines, if_neg (by simp [hc]), hrest]
      rintro rest rfl
      cases hc

/-- The lines of a text that is made of them. -/
theorem lines_flatMap {fields : List (List Char)}
    (hplain : ∀ field ∈ fields, ∀ c ∈ field, plain c = true) :
    lines (fields.flatMap lineOf) = fields.map lineOf := by
  induction fields with
  | nil => rfl
  | cons field fields ih =>
      rw [List.flatMap_cons, List.map_cons,
        lines_lineOf fun c hc => (plain_iff.1 (hplain field List.mem_cons_self c hc)).1,
        ih fun f hf => hplain f (List.mem_cons_of_mem field hf)]

end Plain

end Csv

end Data
