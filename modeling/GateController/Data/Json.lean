import Mathlib.Data.Rat.Init

/-!
# JSON documents

A document is a tree, and an object is a list of fields in which `set` keeps
one value per name, as a Python `dict` does.  A number is an exact rational,
which every finite float is.  A text column that should hold a document is a
`JsonText`: printing and reading a document is not modelled, so the text of a
document is the document, and any other text is kept as it is.
-/

namespace Data

/-- A JSON document. -/
inductive Json : Type where
  | null
  | bool (b : Bool)
  | num (q : ℚ)
  | str (s : String)
  | arr (items : List Json)
  | obj (fields : List (String × Json))

/-- The fields of an object. -/
abbrev Fields := List (String × Json)

namespace Fields

/-- The value under a name. -/
def get? (fields : Fields) (name : String) : Option Json :=
  (fields.find? fun f => f.1 == name).map Prod.snd

/-- Put a value under a name, in place of an older one. -/
def set : Fields → String → Json → Fields
  | [], name, value => [(name, value)]
  | f :: rest, name, value =>
      if f.1 == name then (name, value) :: rest else f :: set rest name value

/-- Remove a name. -/
def erase (fields : Fields) (name : String) : Fields := fields.filter fun f => f.1 != name

/-- Put every field of `other` in. -/
def update (fields other : Fields) : Fields := other.foldl (fun acc f => set acc f.1 f.2) fields

end Fields

/-- The text of an optional string field. -/
def Json.ofOption : Option String → Json
  | none => .null
  | some s => .str s

/-- A text that may be a JSON document. -/
inductive JsonText : Type where
  | json (value : Json)
  | other (text : String)

end Data
