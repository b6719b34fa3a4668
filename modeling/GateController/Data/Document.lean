import Mathlib.Data.Rat.Init
import Mathlib.Tactic.Common

/-!
# JSON documents as they are written

A document whose objects are lists of pairs, in the order of the text and with every
pair that stands there.  Integers and floats are told apart.  A reader may be given a
hook, which makes a value of the pairs of each object, from the inside out.
-/

namespace Data

/-- A document as it is written.  A float is its exact value, if it is finite. -/
inductive Document : Type where
  | null
  | bool (b : Bool)
  | int (n : Int)
  | float (value : Option ℚ)
  | str (s : String)
  | arr (items : List Document)
  | obj (pairs : List (String × Document))

namespace Document

/-- The pairs of an object. -/
abbrev Pairs := List (String × Document)

/-- No object in the document has a name twice. -/
inductive Unique : Document → Prop where
  | null : Unique .null
  | bool (b : Bool) : Unique (.bool b)
  | int (n : Int) : Unique (.int n)
  | float (value : Option ℚ) : Unique (.float value)
  | str (s : String) : Unique (.str s)
  | arr {items : List Document} (inside : ∀ item ∈ items, Unique item) : Unique (.arr items)
  | obj {pairs : Pairs} (names : (pairs.map Prod.fst).Nodup)
      (inside : ∀ pair ∈ pairs, Unique pair.2) : Unique (.obj pairs)

theorem unique_arr_iff {items : List Document} :
    Unique (.arr items) ↔ ∀ item ∈ items, Unique item := by
  constructor
  · intro h
    cases h with
    | arr inside => exact inside
  · exact .arr

theorem unique_obj_iff {pairs : Pairs} :
    Unique (.obj pairs) ↔ (pairs.map Prod.fst).Nodup ∧ ∀ pair ∈ pairs, Unique pair.2 := by
  constructor
  · intro h
    cases h with
    | obj names inside => exact ⟨names, inside⟩
  · intro h
    exact .obj h.1 h.2

/-! ## Reading with a hook -/

section Hook

variable (hook : Pairs → Option Pairs)

mutual

/-- The document that a reader with the hook makes of a written one.  Without a value, the
hook raised. -/
def readWith : Document → Option Document
  | .arr items => (readItems items).map .arr
  | .obj pairs => (readPairs pairs).bind fun pairs => (hook pairs).map .obj
  | .null => some .null
  | .bool b => some (.bool b)
  | .int n => some (.int n)
  | .float value => some (.float value)
  | .str s => some (.str s)

/-- The items of an array, one by one. -/
def readItems : List Document → Option (List Document)
  | [] => some []
  | item :: rest => (readWith item).bind fun item => (readItems rest).map (item :: ·)

/-- The pairs of an object, one by one. -/
def readPairs : List (String × Document) → Option (List (String × Document))
  | [] => some []
  | (name, value) :: rest =>
      (readWith value).bind fun value => (readPairs rest).map ((name, value) :: ·)

end

variable {hook}

mutual

/-- Where the hook refuses a name that stands twice and nothing else, what is read is the
document as it is written, and no object of it has a name twice. -/
theorem readWith_eq_some_iff
    (hhook : ∀ pairs out, hook pairs = some out ↔ pairs = out ∧ (pairs.map Prod.fst).Nodup) :
    ∀ v out, readWith hook v = some out ↔ v = out ∧ v.Unique
  | .arr items, out => by
      rw [readWith, Option.map_eq_some_iff]
      constructor
      · rintro ⟨items', hitems, rfl⟩
        obtain ⟨rfl, h⟩ := (readItems_eq_some_iff hhook items items').1 hitems
        exact ⟨rfl, .arr h⟩
      · rintro ⟨rfl, h⟩
        exact ⟨items, (readItems_eq_some_iff hhook items items).2 ⟨rfl, unique_arr_iff.1 h⟩, rfl⟩
  | .obj pairs, out => by
      rw [readWith, Option.bind_eq_some_iff]
      constructor
      · rintro ⟨pairs', hpairs, hout⟩
        obtain ⟨rfl, h⟩ := (readPairs_eq_some_iff hhook pairs pairs').1 hpairs
        obtain ⟨pairs', hhooked, rfl⟩ := Option.map_eq_some_iff.1 hout
        obtain ⟨rfl, hnames⟩ := (hhook _ _).1 hhooked
        exact ⟨rfl, .obj hnames h⟩
      · rintro ⟨rfl, h⟩
        obtain ⟨hnames, hinside⟩ := unique_obj_iff.1 h
        exact ⟨pairs, (readPairs_eq_some_iff hhook pairs pairs).2 ⟨rfl, hinside⟩,
          Option.map_eq_some_iff.2 ⟨pairs, (hhook _ _).2 ⟨rfl, hnames⟩, rfl⟩⟩
  | .null, out => by simp [readWith, Unique.null]
  | .bool b, out => by simp [readWith, Unique.bool]
  | .int n, out => by simp [readWith, Unique.int]
  | .float value, out => by simp [readWith, Unique.float]
  | .str s, out => by simp [readWith, Unique.str]

theorem readItems_eq_some_iff
    (hhook : ∀ pairs out, hook pairs = some out ↔ pairs = out ∧ (pairs.map Prod.fst).Nodup) :
    ∀ items out, readItems hook items = some out ↔ items = out ∧ ∀ item ∈ items, item.Unique
  | [], out => by simp [readItems]
  | item :: rest, out => by
      rw [readItems, Option.bind_eq_some_iff]
      constructor
      · rintro ⟨item', hitem, hrest⟩
        obtain ⟨rfl, h⟩ := (readWith_eq_some_iff hhook item item').1 hitem
        obtain ⟨rest', htail, rfl⟩ := Option.map_eq_some_iff.1 hrest
        obtain ⟨rfl, hinside⟩ := (readItems_eq_some_iff hhook rest rest').1 htail
        exact ⟨rfl, List.forall_mem_cons.2 ⟨h, hinside⟩⟩
      · rintro ⟨rfl, h⟩
        obtain ⟨hitem, hrest⟩ := List.forall_mem_cons.1 h
        have htail := (readItems_eq_some_iff hhook rest rest).2 ⟨rfl, hrest⟩
        exact ⟨item, (readWith_eq_some_iff hhook item item).2 ⟨rfl, hitem⟩,
          Option.map_eq_some_iff.2 ⟨rest, htail, rfl⟩⟩

theorem readPairs_eq_some_iff
    (hhook : ∀ pairs out, hook pairs = some out ↔ pairs = out ∧ (pairs.map Prod.fst).Nodup) :
    ∀ pairs out, readPairs hook pairs = some out ↔ pairs = out ∧ ∀ pair ∈ pairs, pair.2.Unique
  | [], out => by simp [readPairs]
  | (name, value) :: rest, out => by
      rw [readPairs, Option.bind_eq_some_iff]
      constructor
      · rintro ⟨value', hvalue, hrest⟩
        obtain ⟨rfl, h⟩ := (readWith_eq_some_iff hhook value value').1 hvalue
        obtain ⟨rest', htail, rfl⟩ := Option.map_eq_some_iff.1 hrest
        obtain ⟨rfl, hinside⟩ := (readPairs_eq_some_iff hhook rest rest').1 htail
        exact ⟨rfl, List.forall_mem_cons.2 ⟨h, hinside⟩⟩
      · rintro ⟨rfl, h⟩
        obtain ⟨hvalue, hrest⟩ := List.forall_mem_cons.1 h
        have htail := (readPairs_eq_some_iff hhook rest rest).2 ⟨rfl, hrest⟩
        exact ⟨value, (readWith_eq_some_iff hhook value value).2 ⟨rfl, hvalue⟩,
          Option.map_eq_some_iff.2 ⟨rest, htail, rfl⟩⟩

end

end Hook

end Document

end Data
