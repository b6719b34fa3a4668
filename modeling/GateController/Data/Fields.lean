import GateController.Data.Json

/-!
# The fields of an object

Reading, setting and erasing a name, against each other.  Two objects that are
set in the same places are the same list, so what is left when some names are
erased does not depend on what these names were set to.
-/

namespace Data

namespace Fields

variable {fields others : Fields} {name other : String} {value : Json}

@[simp] theorem get?_nil : get? [] name = none := rfl

theorem get?_cons (f : String × Json) :
    get? (f :: fields) name = if f.1 = name then some f.2 else get? fields name := by
  unfold get?
  rw [List.find?_cons]
  split
  next h => rw [if_pos (by simpa using h)]; rfl
  next h => rw [if_neg (by simpa using h)]

@[simp] theorem set_nil : set [] name value = [(name, value)] := rfl

theorem set_cons (f : String × Json) :
    set (f :: fields) name value =
      if f.1 = name then (name, value) :: fields else f :: set fields name value := by
  rw [set]
  simp only [beq_iff_eq]

@[simp] theorem get?_set_self : get? (set fields name value) name = some value := by
  induction fields with
  | nil => simp [get?_cons]
  | cons f rest ih =>
      rw [set_cons]
      split
      next => simp [get?_cons]
      next h =>
        rw [get?_cons, if_neg h]
        exact ih

theorem get?_set_ne (h : other ≠ name) :
    get? (set fields name value) other = get? fields other := by
  induction fields with
  | nil => simp [get?_cons, Ne.symm h]
  | cons f rest ih =>
      rw [set_cons]
      split
      next hf => simp [get?_cons, hf, Ne.symm h]
      next => rw [get?_cons, get?_cons, ih]

@[simp] theorem get?_erase_self : get? (erase fields name) name = none := by
  simp [get?, erase]

theorem get?_erase_ne (h : other ≠ name) : get? (erase fields name) other = get? fields other := by
  induction fields with
  | nil => rfl
  | cons f rest ih =>
      unfold erase at ih ⊢
      rw [List.filter_cons]
      split
      next => rw [get?_cons, get?_cons, ih]
      next hf =>
        have hf' : f.1 = name := by simpa using hf
        rw [ih, get?_cons, if_neg (hf' ▸ Ne.symm h)]

@[simp] theorem erase_set_self : erase (set fields name value) name = erase fields name := by
  induction fields with
  | nil => simp [erase]
  | cons f rest ih =>
      unfold erase at ih ⊢
      rw [set_cons]
      split
      next hf => simp [hf]
      next hf => rw [List.filter_cons, List.filter_cons, ih]

theorem erase_set_ne (h : other ≠ name) :
    erase (set fields name value) other = set (erase fields other) name value := by
  induction fields with
  | nil => simp [erase, Ne.symm h]
  | cons f rest ih =>
      unfold erase at ih ⊢
      rw [set_cons]
      split
      next hf => simp [hf, Ne.symm h, set_cons]
      next hf =>
        rw [List.filter_cons, List.filter_cons, ih]
        split
        next => rw [set_cons, if_neg hf]
        next => rfl

@[simp] theorem erase_erase_self : erase (erase fields name) name = erase fields name := by
  unfold erase
  rw [List.filter_filter]
  exact List.filter_congr fun f _ => Bool.and_self _

theorem erase_of_get?_eq_none (h : get? fields name = none) : erase fields name = fields := by
  refine List.filter_eq_self.2 fun f hf => ?_
  have hfind : (fields.find? fun f => f.1 == name) = none := by
    simpa only [get?, Option.map_eq_none_iff] using h
  simpa using List.find?_eq_none.1 hfind f hf

/-! ## Entries that are out of the way -/

theorem get?_append_of_ne (h : ∀ f ∈ fields, f.1 ≠ name) :
    get? (fields ++ others) name = get? others name := by
  induction fields with
  | nil => rfl
  | cons f rest ih =>
      rw [List.cons_append, get?_cons, if_neg (h f List.mem_cons_self)]
      exact ih fun g hg => h g (List.mem_cons_of_mem f hg)

theorem set_append_of_ne (h : ∀ f ∈ fields, f.1 ≠ name) :
    set (fields ++ others) name value = fields ++ set others name value := by
  induction fields with
  | nil => rfl
  | cons f rest ih =>
      rw [List.cons_append, set_cons, if_neg (h f List.mem_cons_self)]
      rw [ih fun g hg => h g (List.mem_cons_of_mem f hg), List.cons_append]

theorem erase_append_of_ne (h : ∀ f ∈ fields, f.1 ≠ name) :
    erase (fields ++ others) name = fields ++ erase others name := by
  unfold erase
  rw [List.filter_append, List.filter_eq_self.2]
  intro f hf
  simpa using h f hf

@[simp] theorem set_set_self (other : Json) :
    set (set fields name other) name value = set fields name value := by
  induction fields with
  | nil => simp [set_cons]
  | cons f rest ih =>
      rw [set_cons]
      split
      next hf => simp [set_cons, hf]
      next hf => rw [set_cons, if_neg hf, ih, set_cons, if_neg hf]

/-- Two names may be set in either order, if one of them is there. -/
theorem set_comm {a b : Json} (h : other ≠ name) (hthere : get? fields other ≠ none) :
    set (set fields name a) other b = set (set fields other b) name a := by
  induction fields with
  | nil => exact absurd rfl hthere
  | cons f rest ih =>
      rw [get?_cons] at hthere
      by_cases hname : f.1 = name
      · have hother : f.1 ≠ other := fun heq => h (heq.symm.trans hname)
        simp [set_cons, hname, Ne.symm h]
      · by_cases hother : f.1 = other
        · simp [set_cons, hother, h]
        · rw [if_neg hother] at hthere
          simp [set_cons, hname, hother, ih hthere]

/-! ## Objects without repetition -/

theorem get?_eq_some_of_mem (hnodup : (fields.map Prod.fst).Nodup) (h : (name, value) ∈ fields) :
    get? fields name = some value := by
  induction fields with
  | nil => cases h
  | cons f rest ih =>
      rw [List.map_cons, List.nodup_cons] at hnodup
      rw [get?_cons]
      obtain rfl | h := List.mem_cons.1 h
      · exact if_pos rfl
      · rw [if_neg, ih hnodup.2 h]
        rintro rfl
        exact hnodup.1 (List.mem_map.2 ⟨_, h, rfl⟩)

theorem mem_of_get?_eq_some (h : get? fields name = some value) : (name, value) ∈ fields := by
  induction fields with
  | nil => cases h
  | cons f rest ih =>
      rw [get?_cons] at h
      split at h
      next hname =>
        cases h
        rw [← hname]
        exact List.mem_cons_self
      next => exact List.mem_cons_of_mem f (ih h)

/-- Objects with the same names in the same order, and the same value under each of them. -/
theorem ext_of_names (hnames : fields.map Prod.fst = others.map Prod.fst)
    (hnodup : (others.map Prod.fst).Nodup)
    (h : ∀ name value, (name, value) ∈ fields → get? others name = some value) :
    fields = others := by
  induction fields generalizing others with
  | nil =>
      cases others with
      | nil => rfl
      | cons g more => cases hnames
  | cons f rest ih =>
      cases others with
      | nil => cases hnames
      | cons g more =>
          rw [List.map_cons, List.map_cons, List.cons.injEq] at hnames
          rw [List.map_cons, List.nodup_cons] at hnodup
          have hf := h f.1 f.2 List.mem_cons_self
          rw [get?_cons, if_pos hnames.1.symm] at hf
          have hhead : f = g := Prod.ext hnames.1 (Option.some.inj hf).symm
          rw [hhead, ih hnames.2 hnodup.2 fun name value hmem => ?_]
          have hget := h name value (List.mem_cons_of_mem f hmem)
          rw [get?_cons, if_neg] at hget
          · exact hget
          · rintro rfl
            refine hnodup.1 ?_
            rw [← hnames.2]
            exact List.mem_map.2 ⟨_, hmem, rfl⟩

/-- A name that is set is there once. -/
theorem names_set (fields : Fields) (name : String) (value : Json) :
    (set fields name value).map Prod.fst = if name ∈ fields.map Prod.fst then
      fields.map Prod.fst else fields.map Prod.fst ++ [name] := by
  induction fields with
  | nil => rfl
  | cons f rest ih =>
      rw [set_cons]
      by_cases hname : f.1 = name
      · simp [hname]
      · rw [if_neg hname, List.map_cons, ih, List.map_cons]
        by_cases hrest : name ∈ rest.map Prod.fst
        · rw [if_pos hrest, if_pos (List.mem_cons_of_mem f.1 hrest)]
        · rw [if_neg hrest, if_neg, List.cons_append]
          intro hmem
          rcases List.mem_cons.1 hmem with heq | hmem
          · exact hname heq.symm
          · exact hrest hmem

theorem nodup_set (h : (fields.map Prod.fst).Nodup) (name : String) (value : Json) :
    ((set fields name value).map Prod.fst).Nodup := by
  rw [names_set]
  split
  next => exact h
  next hnew =>
    refine List.nodup_append.2 ⟨h, by simp, fun a ha b hb => ?_⟩
    rw [List.mem_singleton.1 hb]
    exact fun heq => hnew (heq ▸ ha)

theorem nodup_erase (h : (fields.map Prod.fst).Nodup) (name : String) :
    ((erase fields name).map Prod.fst).Nodup :=
  h.sublist (List.filter_sublist.map Prod.fst)

theorem nodup_update (h : (fields.map Prod.fst).Nodup) (others : Fields) :
    ((update fields others).map Prod.fst).Nodup := by
  unfold update
  induction others generalizing fields with
  | nil => exact h
  | cons f rest ih => exact ih (nodup_set h f.1 f.2)

/-- What is put over an object hides what was there. -/
theorem get?_update (fields : Fields) (h : (others.map Prod.fst).Nodup) (name : String) :
    get? (update fields others) name = (get? others name).or (get? fields name) := by
  unfold update
  induction others generalizing fields with
  | nil => rfl
  | cons f rest ih =>
      rw [List.map_cons, List.nodup_cons] at h
      rw [List.foldl_cons, ih _ h.2, get?_cons]
      by_cases hname : f.1 = name
      · subst hname
        have hrest : get? rest f.1 = none := by
          cases hget : get? rest f.1 with
          | none => rfl
          | some value =>
              exact absurd (List.mem_map.2 ⟨_, mem_of_get?_eq_some hget, rfl⟩) h.1
        rw [if_pos rfl, hrest, get?_set_self]
        rfl
      · rw [if_neg hname, get?_set_ne (Ne.symm hname)]

/-- What is put over an object leaves the names it does not have. -/
theorem get?_update_of_eq_none (fields : Fields) (h : get? others name = none) :
    get? (update fields others) name = get? fields name := by
  unfold update
  induction others generalizing fields with
  | nil => rfl
  | cons f rest ih =>
      rw [get?_cons] at h
      split at h
      next => cases h
      next hne => rw [List.foldl_cons, ih _ h, get?_set_ne (Ne.symm hne)]

end Fields

end Data
