import Mathlib.Data.List.Nodup
import Mathlib.Data.List.Basic

/-!
# Tables with a row id and a unique column

A table is a list of rows, each under an id that the table assigns.  One column
may be declared unique: `key` reads it off a row, and `none` is SQL's `NULL`,
which never conflicts.  The two constraints are fields, so a table that breaks
one cannot be built.  An insert answers `none` where SQL reports a constraint
violation, and an update takes a change that leaves the unique column alone.

The lemmas describe a table by what `find?` and `byKey` return, so that the
list behind it is not opened again.
-/

namespace Data

/-- Rows under distinct ids, unique in the column that `key` reads. -/
structure Table (α κ : Type) (key : α → Option κ) where
  rows : List (Nat × α)
  ids : (rows.map Prod.fst).Nodup
  keys : ∀ p ∈ rows, ∀ q ∈ rows, ∀ k, key p.2 = some k → key q.2 = some k → p.1 = q.1

namespace Table

variable {α κ : Type} {key : α → Option κ}

/-- The table without rows. -/
def empty : Table α κ key := ⟨[], by simp, by simp⟩

/-- The row with an id. -/
def find? (t : Table α κ key) (id : Nat) : Option α :=
  (t.rows.find? fun p => p.1 == id).map Prod.snd

/-- The row with a value in the unique column, with its id. -/
def byKey [DecidableEq κ] (t : Table α κ key) (k : κ) : Option (Nat × α) :=
  t.rows.find? fun p => key p.2 == some k

/-- The id the next row gets: one more than the largest in use. -/
def nextId (t : Table α κ key) : Nat := t.rows.foldr (fun p n => max p.1 n) 0 + 1

theorem id_lt_nextId (t : Table α κ key) {p : Nat × α} (hp : p ∈ t.rows) : p.1 < t.nextId := by
  obtain ⟨rows, ids, keys⟩ := t
  simp only [nextId] at hp ⊢
  clear ids keys
  induction rows with
  | nil => simp at hp
  | cons q rows ih =>
      rcases List.mem_cons.1 hp with rfl | hp
      · simp only [List.foldr_cons]
        omega
      · have := ih hp
        simp only [List.foldr_cons]
        omega

/-- Whether a new row would repeat a value of the unique column. -/
def Conflicts [DecidableEq κ] (t : Table α κ key) (a : α) : Prop :=
  ∃ p ∈ t.rows, (key a).isSome ∧ key p.2 = key a

instance [DecidableEq κ] (t : Table α κ key) (a : α) : Decidable (t.Conflicts a) :=
  inferInstanceAs (Decidable (∃ p ∈ t.rows, _))

/-- Append a row under the next id. -/
def append [DecidableEq κ] (t : Table α κ key) (a : α) (h : ¬ t.Conflicts a) : Table α κ key where
  rows := t.rows ++ [(t.nextId, a)]
  ids := by
    rw [List.map_append, List.nodup_append]
    refine ⟨t.ids, by simp, ?_⟩
    intro i hi j hj
    simp only [List.map_cons, List.map_nil, List.mem_singleton] at hj
    obtain ⟨p, hp, rfl⟩ := List.mem_map.1 hi
    have := t.id_lt_nextId hp
    omega
  keys := by
    have hnew : ∀ p ∈ t.rows, ∀ k, key p.2 = some k → key a = some k → False :=
      fun p hp k h1 h2 => h ⟨p, hp, by simp [h2], by rw [h1, h2]⟩
    intro p hp q hq k hkp hkq
    simp only [List.mem_append, List.mem_singleton] at hp hq
    rcases hp with hp | rfl <;> rcases hq with hq | rfl
    · exact t.keys p hp q hq k hkp hkq
    · exact (hnew p hp k hkp hkq).elim
    · exact (hnew q hq k hkq hkp).elim
    · rfl

/-- `INSERT`: the new id and table, or `none` if the unique column conflicts. -/
def insert [DecidableEq κ] (t : Table α κ key) (a : α) : Option (Nat × Table α κ key) :=
  if h : t.Conflicts a then none else some (t.nextId, t.append a h)

/-- `UPDATE`: change the selected rows, leaving the unique column as it is. -/
def update (t : Table α κ key) (sel : Nat → α → Bool) (f : α → α)
    (hf : ∀ a, key (f a) = key a) : Table α κ key where
  rows := t.rows.map fun p => if sel p.1 p.2 then (p.1, f p.2) else p
  ids := by
    have : (Prod.fst ∘ fun p : Nat × α => if sel p.1 p.2 then (p.1, f p.2) else p) = Prod.fst := by
      funext p
      simp only [Function.comp]
      split <;> rfl
    rw [List.map_map, this]
    exact t.ids
  keys := by
    have hid : ∀ p : Nat × α, (if sel p.1 p.2 then (p.1, f p.2) else p).1 = p.1 := by
      intro p; split <;> rfl
    have hkey : ∀ p : Nat × α, key (if sel p.1 p.2 then (p.1, f p.2) else p).2 = key p.2 := by
      intro p
      split
      · exact hf p.2
      · rfl
    intro p hp q hq k hkp hkq
    obtain ⟨p₀, hp₀, rfl⟩ := List.mem_map.1 hp
    obtain ⟨q₀, hq₀, rfl⟩ := List.mem_map.1 hq
    rw [hkey] at hkp hkq
    rw [hid, hid]
    exact t.keys p₀ hp₀ q₀ hq₀ k hkp hkq

/-- `DELETE`: take the selected rows out. -/
def delete (t : Table α κ key) (sel : Nat → α → Bool) : Table α κ key where
  rows := t.rows.filter fun p => !sel p.1 p.2
  ids := t.ids.sublist (List.filter_sublist.map _)
  keys := fun p hp q hq => t.keys p (List.mem_of_mem_filter hp) q (List.mem_of_mem_filter hq)

/-- How many rows an `UPDATE` selects. -/
def count (t : Table α κ key) (sel : Nat → α → Bool) : Nat :=
  t.rows.countP fun p => sel p.1 p.2

/-! ## Looking rows up -/

theorem find?_eq_some_iff {t : Table α κ key} {id : Nat} {a : α} :
    t.find? id = some a ↔ (id, a) ∈ t.rows := by
  obtain ⟨rows, ids, keys⟩ := t
  simp only [find?]
  clear keys
  induction rows with
  | nil => simp
  | cons q rows ih =>
      obtain ⟨j, b⟩ := q
      simp only [List.map_cons, List.nodup_cons, List.mem_map, not_exists, not_and] at ids
      by_cases h : j = id
      · subst h
        have hne : ∀ x, (j, x) ∉ rows := fun x hx => ids.1 (j, x) hx rfl
        simp [hne, eq_comm]
      · simp [h, ih ids.2, Ne.symm h]

theorem find?_eq_none_iff {t : Table α κ key} {id : Nat} :
    t.find? id = none ↔ ∀ p ∈ t.rows, p.1 ≠ id := by
  simp [find?]

/-- A selection by id picks one row or none. -/
theorem count_eq_one_iff {t : Table α κ key} {id : Nat} {p : α → Bool} :
    t.count (fun i a => i == id && p a) = 1 ↔ ∃ a, t.find? id = some a ∧ p a := by
  obtain ⟨rows, ids, keys⟩ := t
  simp only [count, find?]
  clear keys
  induction rows with
  | nil => simp
  | cons q rows ih =>
      obtain ⟨j, b⟩ := q
      simp only [List.map_cons, List.nodup_cons, List.mem_map, not_exists, not_and] at ids
      by_cases h : j = id
      · subst h
        have hzero : rows.countP (fun q => q.1 == j && p q.2) = 0 := by
          rw [List.countP_eq_zero]
          intro q hq
          have := ids.1 q hq
          simp [this]
        simp [List.countP_cons, hzero]
      · simp [h, ih ids.2]

@[simp] theorem find?_empty {id : Nat} : (empty : Table α κ key).find? id = none := rfl

theorem find?_update {t : Table α κ key} {sel : Nat → α → Bool} {f : α → α}
    {hf : ∀ a, key (f a) = key a} (i : Nat) :
    (t.update sel f hf).find? i = (t.find? i).map fun a => if sel i a then f a else a := by
  cases h : t.find? i with
  | none =>
      rw [find?_eq_none_iff] at h
      refine find?_eq_none_iff.2 fun p hp => ?_
      obtain ⟨q, hq, rfl⟩ := List.mem_map.1 hp
      have := h q hq
      split <;> exact this
  | some a =>
      rw [find?_eq_some_iff] at h
      refine find?_eq_some_iff.2 (List.mem_map.2 ⟨(i, a), h, ?_⟩)
      dsimp only
      split <;> rfl

theorem find?_delete {t : Table α κ key} {sel : Nat → α → Bool} (i : Nat) :
    (t.delete sel).find? i = (t.find? i).filter fun a => !sel i a := by
  cases h : t.find? i with
  | none =>
      rw [find?_eq_none_iff] at h
      exact find?_eq_none_iff.2 fun p hp => h p (List.mem_of_mem_filter hp)
  | some a =>
      rw [find?_eq_some_iff] at h
      cases hsel : sel i a with
      | false =>
          simp only [Option.filter, hsel, Bool.not_false, if_true]
          exact find?_eq_some_iff.2 (List.mem_filter.2 ⟨h, by simp [hsel]⟩)
      | true =>
          simp only [Option.filter, hsel, Bool.not_true, Bool.false_eq_true, if_false]
          refine find?_eq_none_iff.2 ?_
          rintro ⟨j, b⟩ hp rfl
          obtain ⟨hmem, hkeep⟩ := List.mem_filter.1 hp
          cases (find?_eq_some_iff.2 h).symm.trans (find?_eq_some_iff.2 hmem)
          simp [hsel] at hkeep

/-- Every row of `t` is still there in `t'`. -/
def Extends (t t' : Table α κ key) : Prop := ∀ i a, t.find? i = some a → t'.find? i = some a

theorem Extends.refl (t : Table α κ key) : t.Extends t := fun _ _ h => h

theorem Extends.trans {t₁ t₂ t₃ : Table α κ key} (h₁ : t₁.Extends t₂) (h₂ : t₂.Extends t₃) :
    t₁.Extends t₃ := fun i a h => h₂ i a (h₁ i a h)

variable [DecidableEq κ]

theorem byKey_eq_some_iff {t : Table α κ key} {k : κ} {id : Nat} {a : α} :
    t.byKey k = some (id, a) ↔ t.find? id = some a ∧ key a = some k := by
  rw [find?_eq_some_iff]
  constructor
  · intro h
    exact ⟨List.mem_of_find?_eq_some h, by simpa using List.find?_some h⟩
  · rintro ⟨hmem, hk⟩
    cases hb : t.byKey k with
    | none =>
        have := List.find?_eq_none.1 hb (id, a) hmem
        simp [hk] at this
    | some q =>
        have hq := List.mem_of_find?_eq_some hb
        have hqk : key q.2 = some k := by simpa using List.find?_some hb
        have hid : q.1 = id := t.keys q hq (id, a) hmem k hqk hk
        have h1 : t.find? q.1 = some q.2 := find?_eq_some_iff.2 hq
        have h2 : t.find? q.1 = some a := find?_eq_some_iff.2 (by rw [hid]; exact hmem)
        rw [h1] at h2
        rw [← hid, ← Option.some.inj h2]

theorem byKey_eq_none_iff {t : Table α κ key} {k : κ} :
    t.byKey k = none ↔ ∀ id a, t.find? id = some a → key a ≠ some k := by
  constructor
  · intro h id a hf hk
    rw [byKey_eq_some_iff.2 ⟨hf, hk⟩] at h
    simp at h
  · intro h
    cases hb : t.byKey k with
    | none => rfl
    | some q =>
        obtain ⟨hf, hk⟩ := byKey_eq_some_iff.1 hb
        exact absurd hk (h _ _ hf)

/-! ## What the operations change -/

@[simp] theorem byKey_empty {k : κ} : (empty : Table α κ key).byKey k = none := rfl

theorem insert_eq_some_iff {t t' : Table α κ key} {a : α} {id : Nat} :
    t.insert a = some (id, t') ↔ ∃ h : ¬ t.Conflicts a, id = t.nextId ∧ t' = t.append a h := by
  unfold insert
  split
  · next h => simp [h]
  · next h =>
    simp only [Option.some.injEq, Prod.mk.injEq]
    exact ⟨fun ⟨h1, h2⟩ => ⟨h, h1.symm, h2.symm⟩, fun ⟨_, h1, h2⟩ => ⟨h1.symm, h2.symm⟩⟩

/-- The id of an inserted row was free. -/
theorem find?_of_insert {t t' : Table α κ key} {a : α} {id : Nat}
    (h : t.insert a = some (id, t')) : t.find? id = none := by
  obtain ⟨_, rfl, rfl⟩ := insert_eq_some_iff.1 h
  refine find?_eq_none_iff.2 fun p hp => ?_
  have := t.id_lt_nextId hp
  omega

theorem find?_insert {t t' : Table α κ key} {a : α} {id : Nat}
    (h : t.insert a = some (id, t')) (i : Nat) :
    t'.find? i = if i = id then some a else t.find? i := by
  have hfree := find?_of_insert h
  obtain ⟨_, rfl, rfl⟩ := insert_eq_some_iff.1 h
  by_cases hi : i = t.nextId
  · subst hi
    rw [if_pos rfl]
    exact find?_eq_some_iff.2 (by simp [append])
  · rw [if_neg hi]
    have hb : (t.nextId == i) = false := by simp [Ne.symm hi]
    simp only [find?, append, List.find?_append, List.find?_cons, hb, List.find?_nil,
      Option.or_none]

/-- An insert fails exactly when some row has the value already. -/
theorem insert_eq_none_iff {t : Table α κ key} {a : α} :
    t.insert a = none ↔ ∃ k, key a = some k ∧ t.byKey k ≠ none := by
  have hc : t.insert a = none ↔ t.Conflicts a := by
    unfold insert
    split <;> simp_all
  rw [hc]
  constructor
  · rintro ⟨⟨id, b⟩, hp, hs, he⟩
    obtain ⟨k, hk⟩ := Option.isSome_iff_exists.1 hs
    refine ⟨k, hk, ?_⟩
    rw [byKey_eq_some_iff.2 ⟨find?_eq_some_iff.2 hp, he.trans hk⟩]
    simp
  · rintro ⟨k, hk, hb⟩
    obtain ⟨⟨id, b⟩, hq⟩ := Option.ne_none_iff_exists'.1 hb
    obtain ⟨hf, hbk⟩ := byKey_eq_some_iff.1 hq
    exact ⟨(id, b), find?_eq_some_iff.1 hf, by simp [hk], by rw [hbk, hk]⟩

theorem byKey_of_insert {t t' : Table α κ key} {a : α} {id : Nat} {k : κ}
    (h : t.insert a = some (id, t')) (hk : key a = some k) : t.byKey k = none := by
  by_contra hb
  rw [insert_eq_none_iff.2 ⟨k, hk, hb⟩] at h
  simp at h

theorem byKey_insert {t t' : Table α κ key} {a : α} {id : Nat}
    (h : t.insert a = some (id, t')) (k : κ) :
    t'.byKey k = if key a = some k then some (id, a) else t.byKey k := by
  have hfind := find?_insert h
  split
  · next hk => exact byKey_eq_some_iff.2 ⟨by simp [hfind], hk⟩
  · next hk =>
    cases hb : t.byKey k with
    | none =>
        rw [byKey_eq_none_iff] at hb ⊢
        intro i b hib
        rw [hfind] at hib
        split at hib
        · cases hib; exact hk
        · exact hb i b hib
    | some q =>
        obtain ⟨i, b⟩ := q
        obtain ⟨hib, hbk⟩ := byKey_eq_some_iff.1 hb
        refine byKey_eq_some_iff.2 ⟨?_, hbk⟩
        rw [hfind, if_neg, hib]
        rintro rfl
        rw [find?_of_insert h] at hib
        simp at hib

theorem byKey_update {t : Table α κ key} {sel : Nat → α → Bool} {f : α → α}
    {hf : ∀ a, key (f a) = key a} (k : κ) :
    (t.update sel f hf).byKey k =
      (t.byKey k).map fun p => (p.1, if sel p.1 p.2 then f p.2 else p.2) := by
  cases h : t.byKey k with
  | none =>
      rw [byKey_eq_none_iff] at h
      refine byKey_eq_none_iff.2 fun id a ha => ?_
      rw [find?_update] at ha
      obtain ⟨b, hb, rfl⟩ := Option.map_eq_some_iff.1 ha
      have := h id b hb
      split
      · rw [hf]; exact this
      · exact this
  | some p =>
      obtain ⟨id, a⟩ := p
      obtain ⟨hfind, hk⟩ := byKey_eq_some_iff.1 h
      refine byKey_eq_some_iff.2 ⟨by rw [find?_update, hfind]; rfl, ?_⟩
      dsimp only
      split
      · rw [hf]; exact hk
      · exact hk

/-- A row with a value in the unique column stays, or it is the one that goes. -/
theorem byKey_delete {t : Table α κ key} {sel : Nat → α → Bool} (k : κ) :
    (t.delete sel).byKey k = (t.byKey k).filter fun p => !sel p.1 p.2 := by
  cases h : t.byKey k with
  | none =>
      rw [byKey_eq_none_iff] at h
      refine byKey_eq_none_iff.2 fun id a ha => ?_
      rw [find?_delete, Option.filter_eq_some_iff] at ha
      exact h id a ha.1
  | some p =>
      obtain ⟨id, a⟩ := p
      obtain ⟨hfind, hk⟩ := byKey_eq_some_iff.1 h
      cases hsel : sel id a with
      | false =>
          simp only [Option.filter, hsel, Bool.not_false, if_true]
          exact byKey_eq_some_iff.2 ⟨by rw [find?_delete, hfind]; simp [hsel], hk⟩
      | true =>
          simp only [Option.filter, hsel, Bool.not_true, Bool.false_eq_true, if_false]
          refine byKey_eq_none_iff.2 fun j b hb hbk => ?_
          rw [find?_delete, Option.filter_eq_some_iff] at hb
          have hj := byKey_eq_some_iff.2 ⟨hb.1, hbk⟩
          cases h.symm.trans hj
          simp [hsel] at hb

theorem Extends.of_insert {t t' : Table α κ key} {a : α} {id : Nat}
    (h : t.insert a = some (id, t')) : t.Extends t' := by
  intro i b hb
  rw [find?_insert h, if_neg, hb]
  rintro rfl
  rw [find?_of_insert h] at hb
  simp at hb

/-! ## The rows in order -/

/-- A new row comes last. -/
theorem rows_of_insert {t t' : Table α κ key} {a : α} {id : Nat}
    (h : t.insert a = some (id, t')) : t'.rows = t.rows ++ [(id, a)] := by
  unfold insert at h
  split at h
  next => cases h
  next hnew =>
    cases h
    rfl

omit [DecidableEq κ] in
/-- An update by id changes one row in its place. -/
theorem rows_update_id {t : Table α κ key} {before after : List (Nat × α)} {id : Nat} {a : α}
    (h : t.rows = before ++ (id, a) :: after) {f : α → α} (hf : ∀ a, key (f a) = key a) :
    (t.update (fun i _ => i == id) f hf).rows = before ++ (id, f a) :: after := by
  have hids := t.ids
  rw [h, List.map_append, List.map_cons, List.nodup_append] at hids
  obtain ⟨-, hafter, hbefore⟩ := hids
  have hkeep : ∀ rows : List (Nat × α), (∀ p ∈ rows, p.1 ≠ id) →
      rows.map (fun p => if p.1 == id then (p.1, f p.2) else p) = rows := by
    intro rows hrows
    have hsame : ∀ p ∈ rows, (if p.1 == id then (p.1, f p.2) else p) = p :=
      fun p hp => if_neg (by simpa using hrows p hp)
    exact (List.map_congr_left hsame).trans (List.map_id' rows)
  unfold update
  dsimp only
  rw [h, List.map_append, List.map_cons, hkeep before, hkeep after, if_pos (by simp)]
  · intro p hp heq
    exact (List.nodup_cons.1 hafter).1 (List.mem_map.2 ⟨p, hp, heq⟩)
  · intro p hp
    exact hbefore p.1 (List.mem_map_of_mem hp) id List.mem_cons_self

end Table

end Data
