import Mathlib.Logic.Function.Basic

/-!
# The files of a directory

A directory maps names to files.  A file that is made under one name, filled, and renamed
to another replaces what was there, and leaves the first name free.
-/

namespace Data

/-- The files of a directory. -/
abbrev Files (α : Type) := String → Option α

namespace Files

variable {α : Type} {files : Files α} {name temporary : String}

/-- Put a file under a name. -/
def put (name : String) (file : α) (files : Files α) : Files α :=
  Function.update files name (some file)

/-- Remove the file of a name, if there is one. -/
def remove (name : String) (files : Files α) : Files α := Function.update files name none

/-- Change the file of a name, if there is one. -/
def modify (name : String) (f : α → α) (files : Files α) : Files α :=
  Function.update files name ((files name).map f)

/-- Move the file of one name to another, in place of what is there. -/
def rename (source target : String) (files : Files α) : Files α :=
  match files source with
  | none => files
  | some file => remove source (put target file files)

@[simp] theorem put_self (file : α) : put name file files name = some file := by
  rw [put, Function.update_self]

theorem put_of_ne {other : String} (h : other ≠ name) (file : α) :
    put name file files other = files other := by
  rw [put, Function.update_of_ne h]

@[simp] theorem remove_self : remove name files name = none := by
  rw [remove, Function.update_self]

theorem remove_of_ne {other : String} (h : other ≠ name) :
    remove name files other = files other := by
  rw [remove, Function.update_of_ne h]

@[simp] theorem remove_put (file : α) : remove name (put name file files) = remove name files :=
  Function.update_idem _ _ _

@[simp] theorem put_put (file file' : α) :
    put name file' (put name file files) = put name file' files :=
  Function.update_idem _ _ _

@[simp] theorem modify_put (f : α → α) (file : α) :
    modify name f (put name file files) = put name (f file) files := by
  rw [modify, put_self, Option.map_some, put, Function.update_idem]
  rfl

theorem modify_id (files : Files α) : modify name id files = files := by
  rw [modify, Option.map_id, id, Function.update_eq_self]

theorem modify_modify (f g : α → α) (files : Files α) :
    modify name g (modify name f files) = modify name (g ∘ f) files := by
  rw [modify, modify, Function.update_self, Function.update_idem, Option.map_map, modify]

end Files

end Data
