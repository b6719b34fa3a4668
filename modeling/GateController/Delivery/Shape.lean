import GateController.Delivery.Telemetry
import Mathlib.Data.List.Perm.Subperm

/-!
# Shapes of values

Python compares objects by name, and a truth value with a number.  Two values of one shape,
with the names of every object in one order, are the same to it only if they are equal.
-/

namespace GateController

open Data

/-- The shape of a value.  The names of an object have an order, and some may be missing. -/
inductive Shape where
  | text
  | number
  | truth
  | nullable (inner : Shape)
  | list (item : Shape)
  | object (order : List (String × Shape))

/-- A value of a shape. -/
inductive Fits : Shape → Json → Prop where
  | text (s : String) : Fits .text (.str s)
  | number (q : ℚ) : Fits .number (.num q)
  | truth (b : Bool) : Fits .truth (.bool b)
  | null (inner : Shape) : Fits (.nullable inner) .null
  | present {inner : Shape} {value : Json} (h : Fits inner value) : Fits (.nullable inner) value
  | list {item : Shape} {items : List Json} (h : ∀ value ∈ items, Fits item value) :
      Fits (.list item) (.arr items)
  | object {order : List (String × Shape)} {fields : Fields}
      (hnodup : (order.map Prod.fst).Nodup)
      (hnames : (fields.map Prod.fst).Sublist (order.map Prod.fst))
      (h : ∀ f ∈ fields, ∀ s, (f.1, s) ∈ order → Fits s f.2) : Fits (.object order) (.obj fields)

/-- Sublists of a list without repetition that have the same members. -/
theorem sublist_eq_of_mem_iff {α : Type} {l l₁ l₂ : List α} (hnodup : l.Nodup)
    (h₁ : l₁.Sublist l) (h₂ : l₂.Sublist l) (h : ∀ a, a ∈ l₁ ↔ a ∈ l₂) : l₁ = l₂ := by
  induction h₁ generalizing l₂ with
  | slnil => exact (List.sublist_nil.1 h₂).symm
  | @cons l₁ l a h₁ ih =>
      rw [List.nodup_cons] at hnodup
      cases h₂ with
      | cons _ h₂ => exact ih hnodup.2 h₂ h
      | cons_cons _ h₂ =>
          exact absurd (h₁.subset ((h a).2 List.mem_cons_self)) hnodup.1
  | @cons_cons l₁ l a h₁ ih =>
      rw [List.nodup_cons] at hnodup
      cases h₂ with
      | cons _ h₂ => exact absurd (h₂.subset ((h a).1 List.mem_cons_self)) hnodup.1
      | @cons_cons l₂ _ _ h₂ =>
          rw [ih hnodup.2 h₂ fun b => ?_]
          have hb := h b
          rw [List.mem_cons, List.mem_cons] at hb
          constructor
          · intro hmem
            obtain rfl | hmem' := hb.1 (.inr hmem)
            · exact absurd (h₁.subset hmem) hnodup.1
            · exact hmem'
          · intro hmem
            obtain rfl | hmem' := hb.2 (.inr hmem)
            · exact absurd (h₂.subset hmem) hnodup.1
            · exact hmem'

theorem sameItems_eq {items others : List Json}
    (ih : ∀ a ∈ items, ∀ b ∈ others, Json.same a b = true → a = b)
    (h : Json.same.sameItems items others = true) : items = others := by
  induction items generalizing others with
  | nil =>
      cases others with
      | nil => rfl
      | cons b rest => cases h
  | cons a as ihitems =>
      cases others with
      | nil => cases h
      | cons b bs =>
          rw [Json.same.sameItems, Bool.and_eq_true] at h
          rw [ih a List.mem_cons_self b List.mem_cons_self h.1,
            ihitems (fun a ha b hb => ih a (List.mem_cons_of_mem _ ha) b (List.mem_cons_of_mem _ hb))
              h.2]

/-- The same fields: every name is there, with a value that is the same. -/
theorem sameFields_iff {fields others : Fields} :
    Json.same.sameFields fields others = true ↔
      ∀ f ∈ fields, ∃ other, Fields.get? others f.1 = some other ∧ Json.same f.2 other = true := by
  induction fields with
  | nil => simp [Json.same.sameFields]
  | cons f rest ih =>
      obtain ⟨name, value⟩ := f
      rw [Json.same.sameFields, Bool.and_eq_true, ih, List.forall_mem_cons]
      refine and_congr_left fun _ => ?_
      cases Fields.get? others name with
      | none => simp
      | some other => simp

theorem sameItems_self {items : List Json} (h : ∀ a ∈ items, Json.same a a = true) :
    Json.same.sameItems items items = true := by
  induction items with
  | nil => rfl
  | cons a as ih =>
      rw [Json.same.sameItems, Bool.and_eq_true]
      exact ⟨h a List.mem_cons_self, ih fun b hb => h b (List.mem_cons_of_mem a hb)⟩

namespace Fits

variable {s : Shape} {a b : Json}

/-- A value is the same as itself. -/
theorem same_self (h : Fits s a) : Json.same a a = true := by
  induction h with
  | text t => simp [Json.same]
  | number q => simp [Json.same]
  | truth v => simp [Json.same]
  | null inner => rfl
  | present h ih => exact ih
  | list h ih =>
      rw [Json.same]
      exact sameItems_self ih
  | @object order fields hnodup hnames h ih =>
      rw [Json.same, beq_self_eq_true, Bool.true_and, sameFields_iff]
      intro f hf
      refine ⟨f.2, Fields.get?_eq_some_of_mem (hnames.nodup hnodup) hf, ?_⟩
      obtain ⟨g, hg, hname⟩ := List.mem_map.1 (hnames.subset (List.mem_map.2 ⟨f, hf, rfl⟩))
      exact ih f hf g.2 (by rw [← hname]; exact hg)

/-- Two values of one shape that are the same are equal. -/
theorem eq_of_same (ha : Fits s a) (hb : Fits s b) (h : Json.same a b = true) : a = b := by
  induction ha generalizing b with
  | text t =>
      cases hb
      simpa [Json.same] using h
  | number q =>
      cases hb
      simpa [Json.same] using h
  | truth v =>
      cases hb
      simpa [Json.same] using h
  | null inner =>
      cases b with
      | null => rfl
      | _ => cases h
  | @present inner value hvalue ih =>
      cases hb with
      | null =>
          cases value with
          | null => rfl
          | _ => simp [Json.same] at h
      | present hb => exact ih hb h
  | list hitems ih =>
      cases hb with
      | list hothers =>
          rw [Json.same] at h
          rw [sameItems_eq (fun a ha b hb hab => ih a ha (hothers b hb) hab) h]
  | @object order fields hnodup hnames hfields ih =>
      cases hb with
      | @object _ others _ hnames' hothers =>
          rw [Json.same, Bool.and_eq_true, beq_iff_eq, sameFields_iff] at h
          obtain ⟨hlength, hsame⟩ := h
          have hsub : fields.map Prod.fst ⊆ others.map Prod.fst := by
            intro name hname
            obtain ⟨f, hf, rfl⟩ := List.mem_map.1 hname
            obtain ⟨other, hother, -⟩ := hsame f hf
            exact List.mem_map.2 ⟨_, Fields.mem_of_get?_eq_some hother, rfl⟩
          have hperm : (fields.map Prod.fst).Perm (others.map Prod.fst) :=
            (List.subperm_of_subset (hnames.nodup hnodup) hsub).perm_of_length_le (by simp [hlength])
          have hnameseq := sublist_eq_of_mem_iff hnodup hnames hnames' fun _ => hperm.mem_iff
          rw [Fields.ext_of_names hnameseq (hnames'.nodup hnodup) fun name value hmem => ?_]
          obtain ⟨other, hother, hvalue⟩ := hsame _ hmem
          obtain ⟨g, hg, hname⟩ := List.mem_map.1 (hnames.subset (List.mem_map.2 ⟨_, hmem, rfl⟩))
          have hshape : (name, g.2) ∈ order := by
            have hg' : g = (name, g.2) := Prod.ext hname rfl
            exact hg' ▸ hg
          have heq := ih _ hmem g.2 hshape
            (hothers _ (Fields.mem_of_get?_eq_some hother) g.2 hshape) hvalue
          exact hother.trans (congrArg some heq.symm)

end Fits

/-! ## Objects that keep to an order -/

/-- Fields that have the names of an order, less some, and the shapes that go with them. -/
inductive Follows : List (String × Shape) → Fields → Prop where
  | nil : Follows [] []
  | take {name : String} {s : Shape} {value : Json} {order : List (String × Shape)}
      {fields : Fields} (h : Fits s value) (rest : Follows order fields) :
      Follows ((name, s) :: order) ((name, value) :: fields)
  | skip {f : String × Shape} {order : List (String × Shape)} {fields : Fields}
      (rest : Follows order fields) : Follows (f :: order) fields

namespace Follows

variable {order : List (String × Shape)} {fields : Fields}

theorem names (h : Follows order fields) :
    (fields.map Prod.fst).Sublist (order.map Prod.fst) := by
  induction h with
  | nil => exact .slnil
  | take h rest ih => exact ih.cons_cons _
  | skip rest ih => exact ih.cons _

theorem values (h : Follows order fields) (hnodup : (order.map Prod.fst).Nodup) :
    ∀ f ∈ fields, ∀ s, (f.1, s) ∈ order → Fits s f.2 := by
  induction h with
  | nil =>
      intro f hf
      cases hf
  | @take name s value order fields h rest ih =>
      rw [List.map_cons, List.nodup_cons] at hnodup
      intro f hf s' hs'
      obtain rfl | hf := List.mem_cons.1 hf
      · obtain heq | hs' := List.mem_cons.1 hs'
        · cases heq
          exact h
        · exact absurd (List.mem_map.2 ⟨_, hs', rfl⟩) hnodup.1
      · obtain heq | hs' := List.mem_cons.1 hs'
        · refine absurd (rest.names.subset (List.mem_map.2 ⟨f, hf, ?_⟩)) hnodup.1
          exact (congrArg Prod.fst heq)
        · exact ih hnodup.2 f hf s' hs'
  | @skip g order fields rest ih =>
      rw [List.map_cons, List.nodup_cons] at hnodup
      intro f hf s hs
      obtain rfl | hs := List.mem_cons.1 hs
      · exact absurd (rest.names.subset (List.mem_map.2 ⟨f, hf, rfl⟩)) hnodup.1
      · exact ih hnodup.2 f hf s hs

/-- Some fields are taken out. -/
theorem filter (h : Follows order fields) (p : String × Json → Bool) :
    Follows order (fields.filter p) := by
  induction h with
  | nil => exact .nil
  | take h rest ih =>
      rw [List.filter_cons]
      split
      next => exact .take h ih
      next => exact .skip ih
  | skip rest ih => exact .skip ih

theorem fits (h : Follows order fields) (hnodup : (order.map Prod.fst).Nodup) :
    Fits (.object order) (.obj fields) := .object hnodup h.names (h.values hnodup)

end Follows

end GateController
