import GateController.Processing.Matching
import Mathlib.Order.Bounds.Basic

/-!
# The access policy

What `decide_access` is for, in terms of sets and positions.  The policy knows
the set `A` of authorised plates and the list `H` of readings that count, each a
plate with its confidence.  An exact match comes first.  Otherwise the first
plate of `H` decides that was read twice and that one known confusion turns into
some plate of `A`.

`decideAccess_policy` says that the code decides what the policy decides.  The
policy sees nothing of the order in which plates were authorised, how often or
how they were written, and nothing of a reading that does not count.
-/

namespace GateController

/-! ## The policy -/

/-- Two plates that differ in one place, by two characters of one group. -/
def OneConfusion (p q : List Char) : Prop :=
  ∃ before c d after, p = before ++ c :: after ∧ q = before ++ d :: after ∧ c ≠ d ∧
    ∃ group ∈ confusionGroups, c ∈ group ∧ d ∈ group

/-- The plates of `A` that one confusion makes of a plate. -/
def candidates (A : Set String) (p : String) : Set String :=
  {q | q ∈ A ∧ OneConfusion p.toList q.toList}

/-- A plate that was read twice and has a candidate. -/
def Qualifies (A : Set String) (H : List (String × ℚ)) (p : String) : Prop :=
  2 ≤ (H.map Prod.fst).count p ∧ (candidates A p).Nonempty

/-- The first plate that qualifies. -/
def FirstQualified (A : Set String) (H : List (String × ℚ)) (p : String) : Prop :=
  Qualifies A H p ∧ ∃ before after, H.map Prod.fst = before ++ p :: after ∧
    ∀ p' ∈ before, ¬ Qualifies A H p'

/-- What the policy decides. -/
inductive Policy (A : Set String) (H : List (String × ℚ)) : MatchDecision → Prop where
  /-- The first reading of an authorised plate. -/
  | exact {before after : List (String × ℚ)} {p : String} {c : ℚ}
      (hH : H = before ++ (p, c) :: after) (hbefore : ∀ r ∈ before, r.1 ∉ A) (hp : p ∈ A) :
      Policy A H ⟨true, "exact_match", some p, some p, c⟩
  /-- The first plate that qualifies has one candidate. -/
  | confusion {p q : String} {c : ℚ} (hnone : ∀ r ∈ H, r.1 ∉ A) (hfirst : FirstQualified A H p)
      (hone : candidates A p = {q}) (hmax : IsGreatest {c | (p, c) ∈ H} c) :
      Policy A H ⟨true, "two_frame_ocr_confusion", some q, some p, c⟩
  /-- The first plate that qualifies has several candidates. -/
  | ambiguous {p : String} {c : ℚ} (hnone : ∀ r ∈ H, r.1 ∉ A) (hfirst : FirstQualified A H p)
      (hmany : ∀ q, candidates A p ≠ {q}) (hmax : IsGreatest {c | (p, c) ∈ H} c) :
      Policy A H ⟨false, "ambiguous_fuzzy_match", none, some p, c⟩
  /-- No plate qualifies. -/
  | noMatch (hnone : ∀ r ∈ H, r.1 ∉ A) (hno : ∀ p, ¬ Qualifies A H p) :
      Policy A H { allowed := false, reason := "no_match" }

/-- The authorised plates in their normal form, without the empty one. -/
def authorisedSet (authorised : List String) : Set String :=
  {p | p ≠ "" ∧ ∃ plate ∈ authorised, normalisePlate plate = p}

/-- The readings that count: with a plate, and sure enough. -/
def highReadings (observations : List PlateObservation) : List (String × ℚ) :=
  observations.filterMap fun o =>
    o.plate.bind fun plate =>
      if normalisePlate plate ≠ "" ∧ 9 / 10 ≤ o.confidence then
        some (normalisePlate plate, o.confidence)
      else none

/-! ## Confusions -/

theorem oneConfusion_cons {c d : Char} {p q : List Char} :
    OneConfusion (c :: p) (d :: q) ↔
      (c = d ∧ OneConfusion p q) ∨
      (c ≠ d ∧ p = q ∧ ∃ group ∈ confusionGroups, c ∈ group ∧ d ∈ group) := by
  constructor
  · rintro ⟨before, c', d', after, hp, hq, hne, hgroup⟩
    cases before with
    | nil =>
        cases hp
        cases hq
        exact .inr ⟨hne, rfl, hgroup⟩
    | cons b before =>
        cases hp
        cases hq
        exact .inl ⟨rfl, before, c', d', after, rfl, rfl, hne, hgroup⟩
  · rintro (⟨rfl, before, c', d', after, rfl, rfl, hne, hgroup⟩ | ⟨hne, rfl, hgroup⟩)
    · exact ⟨c :: before, c', d', after, rfl, rfl, hne, hgroup⟩
    · exact ⟨[], c, d, p, rfl, rfl, hne, hgroup⟩

/-- The positions in which two texts of one length differ. -/
def differences (p q : List Char) : List (Char × Char) := (p.zip q).filter fun r => r.1 != r.2

theorem differences_eq_nil {p q : List Char} (h : p.length = q.length) :
    differences p q = [] ↔ p = q := by
  induction p generalizing q with
  | nil => cases q <;> simp_all [differences]
  | cons c p ih =>
      cases q with
      | nil => simp at h
      | cons d q =>
          have ih := ih (q := q) (by simpa using h)
          by_cases hcd : c = d
          · subst hcd
            simpa [differences] using ih
          · simp [differences, hcd]

/-- One difference, by characters of one group. -/
def confused (l : List (Char × Char)) : Bool :=
  match l with
  | [p] => confusionGroups.any fun group => group.contains p.1 && group.contains p.2
  | _ => false

theorem confused_differences {p q : List Char} (h : p.length = q.length) :
    confused (differences p q) = true ↔ OneConfusion p q := by
  induction p generalizing q with
  | nil =>
      cases q with
      | nil => simp [differences, confused, OneConfusion]
      | cons d q => simp at h
  | cons c p ih =>
      cases q with
      | nil => simp at h
      | cons d q =>
          have hlen : p.length = q.length := by simpa using h
          rw [oneConfusion_cons]
          by_cases hcd : c = d
          · subst hcd
            have hsame : differences (c :: p) (c :: q) = differences p q := by simp [differences]
            simp [hsame, ih hlen]
          · have hcons : differences (c :: p) (d :: q) = (c, d) :: differences p q := by
              simp [differences, hcd]
            rw [hcons]
            cases hrest : differences p q with
            | nil =>
                have hpq := (differences_eq_nil hlen).1 hrest
                simp [confused, hcd, hpq]
            | cons r rest =>
                have hpq : p ≠ q := fun he => by
                  rw [(differences_eq_nil hlen).2 he] at hrest
                  cases hrest
                simp [confused, hcd, hpq]

theorem OneConfusion.length {p q : List Char} (h : OneConfusion p q) : p.length = q.length := by
  obtain ⟨before, c, d, after, rfl, rfl, -⟩ := h
  simp

theorem isOneKnownConfusion_iff {p q : String} :
    isOneKnownConfusion p q = true ↔ OneConfusion p.toList q.toList := by
  have hbool : isOneKnownConfusion p q =
      (p.length == q.length && confused (differences p.toList q.toList)) := by
    unfold isOneKnownConfusion confused differences
    rfl
  rw [hbool, Bool.and_eq_true, beq_iff_eq]
  constructor
  · rintro ⟨hlen, h⟩
    rw [← String.length_toList, ← String.length_toList] at hlen
    exact (confused_differences hlen).1 h
  · intro h
    have hlen := h.length
    rw [String.length_toList, String.length_toList] at hlen
    exact ⟨hlen, (confused_differences h.length).2 h⟩

/-! ## Readings -/

section Readings

variable {observations : List PlateObservation} {A : Set String} {p : String}

/-- Whether a reading counts. -/
def counts (r : String × PlateObservation) : Bool :=
  r.1 != "" && decide (9 / 10 ≤ r.2.confidence)

theorem highReadings_eq (observations : List PlateObservation) :
    highReadings observations = ((normalisedObservations observations).filter counts).map
      fun r => (r.1, r.2.confidence) := by
  induction observations with
  | nil => rfl
  | cons o rest ih =>
      unfold highReadings normalisedObservations at ih ⊢
      rw [List.filterMap_cons, List.filterMap_cons, ih]
      cases hplate : o.plate with
      | none => rfl
      | some plate =>
          by_cases hempty : plate = ""
          · subst hempty
            have hnorm : normalisePlate "" = "" := rfl
            simp [hnorm]
          · by_cases hcount : normalisePlate plate ≠ "" ∧ 9 / 10 ≤ o.confidence
            · simp [hempty, hcount, counts]
            · have hskip : counts (normalisePlate plate, o) = false := by
                simpa [counts] using hcount
              rw [Option.bind_some, if_neg hcount]
              simp only [if_neg hempty, List.filter_cons, hskip, Bool.false_eq_true, if_false]

/-- A search over the readings that count. -/
theorem find?_counts (readings : List (String × PlateObservation)) (good : String → Bool) :
    readings.find? (fun r => counts r && good r.1) = (readings.filter counts).find? fun r => good r.1 := by
  rw [List.find?_filter]
  simp only [Bool.decide_and, Bool.decide_eq_true]

/-- The first plate in which a search succeeds is the first one in the list, also
when the list leaves out what it has already had. -/
theorem findSome?_foldl {β : Type} (f : String → Option β) (l seen : List String) :
    (l.foldl (fun seen plate => if plate ∈ seen then seen else seen ++ [plate]) seen).findSome? f =
      (seen ++ l).findSome? f := by
  induction l generalizing seen with
  | nil => simp
  | cons p l ih =>
      rw [List.foldl_cons, ih]
      split
      next hmem =>
        rw [List.findSome?_append, List.findSome?_append, List.findSome?_cons]
        cases hf : f p with
        | none => rfl
        | some b =>
            have hsome : (seen.findSome? f).isSome := by
              rw [List.findSome?_isSome_iff]
              exact ⟨p, hmem, by rw [hf]; rfl⟩
            obtain ⟨b', hb'⟩ := Option.isSome_iff_exists.1 hsome
            rw [hb']
            rfl
      next => rw [List.append_assoc, List.singleton_append]

/-- The search over the distinct plates, as one over the readings. -/
theorem findSome?_candidatePlates {β : Type} (f : String → Option β) :
    (candidatePlates (normalisedObservations observations)).findSome? f =
      ((highReadings observations).map Prod.fst).findSome? f := by
  have hmap : (highReadings observations).map Prod.fst =
      ((normalisedObservations observations).filter counts).map Prod.fst := by
    rw [highReadings_eq, List.map_map]
    rfl
  rw [hmap]
  exact findSome?_foldl f _ []

theorem readingsOf_map (hp : p ≠ "") :
    (readingsOf (normalisedObservations observations) p).map (fun r => (r.1, r.2.confidence)) =
      (highReadings observations).filter fun r => r.1 == p := by
  rw [highReadings_eq, List.filter_map, List.filter_filter]
  refine congrArg _ (List.filter_congr fun r _ => ?_)
  by_cases hr : r.1 = p
  · have hne : (r.1 != "") = true := by simpa [hr] using hp
    simp only [Function.comp_apply, counts, hne, Bool.true_and, minFuzzyConfidence]
    rfl
  · have hbeq : (r.1 == p) = false := by simpa using hr
    simp only [Function.comp_apply, hbeq, Bool.false_and]

theorem length_readingsOf (hp : p ≠ "") :
    (readingsOf (normalisedObservations observations) p).length =
      ((highReadings observations).map Prod.fst).count p := by
  rw [← List.length_map (f := fun r : String × PlateObservation => (r.1, r.2.confidence)),
    readingsOf_map hp, List.count_eq_countP, List.countP_map, List.countP_eq_length_filter]
  rfl

/-- The largest of some confidences that are not negative. -/
theorem isGreatest_foldl {α : Type} (f : α → ℚ) (l : List α) (hne : l ≠ [])
    (hpos : ∀ a ∈ l, 0 ≤ f a) : IsGreatest {c | ∃ a ∈ l, f a = c} (l.foldl (fun best a => max best (f a)) 0) := by
  have hfold : ∀ (l : List α) (b : ℚ), (∀ a ∈ l, f a ≤ l.foldl (fun best a => max best (f a)) b) ∧
      b ≤ l.foldl (fun best a => max best (f a)) b ∧
      (l.foldl (fun best a => max best (f a)) b = b ∨
        ∃ a ∈ l, f a = l.foldl (fun best a => max best (f a)) b) := by
    intro l
    induction l with
    | nil => exact fun b => ⟨fun _ h => absurd h List.not_mem_nil, le_rfl, .inl rfl⟩
    | cons x l ih =>
        intro b
        obtain ⟨hall, hle, heq⟩ := ih (max b (f x))
        simp only [List.foldl_cons]
        refine ⟨?_, (le_max_left _ _).trans hle, ?_⟩
        · intro a ha
          rcases List.mem_cons.1 ha with rfl | ha
          · exact (le_max_right _ _).trans hle
          · exact hall a ha
        · rcases heq with heq | ⟨a, ha, heq⟩
          · rcases max_choice b (f x) with hmax | hmax
            · exact .inl (heq.trans hmax)
            · exact .inr ⟨x, List.mem_cons_self, (heq.trans hmax).symm⟩
          · exact .inr ⟨a, List.mem_cons_of_mem _ ha, heq⟩
  obtain ⟨hall, hle, heq⟩ := hfold l 0
  refine ⟨?_, ?_⟩
  · rcases heq with heq | hmem
    · obtain ⟨a, ha⟩ := List.exists_mem_of_ne_nil l hne
      exact ⟨a, ha, le_antisymm (hall a ha) (heq.le.trans (hpos a ha))⟩
    · exact hmem
  · rintro c ⟨a, ha, rfl⟩
    exact hall a ha

theorem isGreatest_readingsOf (hp : p ≠ "")
    (hne : readingsOf (normalisedObservations observations) p ≠ []) :
    IsGreatest {c | (p, c) ∈ highReadings observations}
      ((readingsOf (normalisedObservations observations) p).foldl
        (fun best r => max best r.2.confidence) 0) := by
  have hset : {c | (p, c) ∈ highReadings observations} =
      {c | ∃ r ∈ readingsOf (normalisedObservations observations) p, r.2.confidence = c} := by
    have hmem := @readingsOf_map observations _ hp
    ext c
    constructor
    · intro hc
      have : (p, c) ∈ (highReadings observations).filter fun r => r.1 == p :=
        List.mem_filter.2 ⟨hc, by simp⟩
      rw [← hmem] at this
      obtain ⟨r, hr, heq⟩ := List.mem_map.1 this
      exact ⟨r, hr, (Prod.mk.inj heq).2⟩
    · rintro ⟨r, hr, rfl⟩
      have : (r.1, r.2.confidence) ∈ (highReadings observations).filter fun r => r.1 == p := by
        rw [← hmem]
        exact List.mem_map.2 ⟨r, hr, rfl⟩
      obtain ⟨hin, heq⟩ := List.mem_filter.1 this
      rw [← show r.1 = p by simpa using heq]
      exact hin
  rw [hset]
  refine isGreatest_foldl _ _ hne fun r hr => ?_
  have hconf : minFuzzyConfidence ≤ r.2.confidence := by
    have := (List.mem_filter.1 hr).2
    simp only [Bool.and_eq_true, decide_eq_true_eq] at this
    exact this.2
  exact (by decide +kernel : (0 : ℚ) ≤ minFuzzyConfidence).trans hconf

/-! ## One plate -/

/-- The authorised plates, as the code collects them. -/
def authorisedPlates (authorised : List String) : List String :=
  (authorised.map normalisePlate).filter (· != "")

theorem mem_authorisedPlates {authorised : List String} :
    p ∈ authorisedPlates authorised ↔ p ∈ authorisedSet authorised := by
  simp only [authorisedPlates, List.mem_filter, List.mem_map, bne_iff_ne, authorisedSet,
    Set.mem_ofPred_eq]
  exact and_comm

/-- The candidates, as the code collects them. -/
def candidateList (authorised : List String) (p : String) : List String :=
  ((authorisedPlates authorised).filter (isOneKnownConfusion p)).dedup

theorem mem_candidateList {authorised : List String} {q : String} :
    q ∈ candidateList authorised p ↔ q ∈ candidates (authorisedSet authorised) p := by
  simp only [candidateList, List.mem_dedup, List.mem_filter, mem_authorisedPlates,
    isOneKnownConfusion_iff, candidates, Set.mem_ofPred_eq]

/-- What a plate decides that was read twice, given its candidates. -/
def decisionOf (p : String) (confidence : ℚ) : List String → Option MatchDecision
  | [] => none
  | [matched] => some ⟨true, "two_frame_ocr_confusion", some matched, some p, confidence⟩
  | _ => some ⟨false, "ambiguous_fuzzy_match", none, some p, confidence⟩

theorem decideCandidate_eq {readings : List (String × PlateObservation)} {authorised : List String}
    {l : List String} (htwo : ¬ (readingsOf readings p).length < 2)
    (hlist : candidateList authorised p = l) :
    decideCandidate readings (authorisedPlates authorised) p =
      decisionOf p ((readingsOf readings p).foldl (fun best r => max best r.2.confidence) 0) l := by
  subst hlist
  unfold decideCandidate
  rw [if_neg htwo]
  rfl

/-- What one plate decides, by how many candidates it has. -/
theorem decideCandidate_cases (authorised : List String) (hp : p ≠ "") :
    (¬ Qualifies (authorisedSet authorised) (highReadings observations) p ∧
      decideCandidate (normalisedObservations observations) (authorisedPlates authorised) p = none) ∨
    (Qualifies (authorisedSet authorised) (highReadings observations) p ∧
      ∃ c, IsGreatest {c | (p, c) ∈ highReadings observations} c ∧
      ((∃ q, candidates (authorisedSet authorised) p = {q} ∧
          decideCandidate (normalisedObservations observations) (authorisedPlates authorised) p =
            some ⟨true, "two_frame_ocr_confusion", some q, some p, c⟩) ∨
        (∀ q, candidates (authorisedSet authorised) p ≠ {q}) ∧
          decideCandidate (normalisedObservations observations) (authorisedPlates authorised) p =
            some ⟨false, "ambiguous_fuzzy_match", none, some p, c⟩)) := by
  have hlen := @length_readingsOf observations _ hp
  by_cases hfew : (readingsOf (normalisedObservations observations) p).length < 2
  · refine .inl ⟨fun hq => ?_, by simp [decideCandidate, hfew]⟩
    have := hq.1
    omega
  · have hne : readingsOf (normalisedObservations observations) p ≠ [] := by
      intro hnil
      rw [hnil] at hfew
      simp at hfew
    have htwo : 2 ≤ ((highReadings observations).map Prod.fst).count p := by omega
    have hmem : ∀ q, q ∈ candidateList authorised p ↔
        q ∈ candidates (authorisedSet authorised) p := fun q => mem_candidateList
    have hnd : (candidateList authorised p).Nodup := List.nodup_dedup _
    cases hlist : candidateList authorised p with
    | nil =>
        refine .inl ⟨fun hq => ?_, decideCandidate_eq hfew hlist⟩
        obtain ⟨q, hq⟩ := hq.2
        rw [← hmem, hlist] at hq
        cases hq
    | cons q rest =>
        have hq : q ∈ candidates (authorisedSet authorised) p :=
          (hmem q).1 (hlist ▸ List.mem_cons_self)
        refine .inr ⟨⟨htwo, q, hq⟩, _, isGreatest_readingsOf hp hne, ?_⟩
        cases rest with
        | nil =>
            refine .inl ⟨q, Set.eq_singleton_iff_unique_mem.2 ⟨hq, fun r hr => ?_⟩,
              decideCandidate_eq hfew hlist⟩
            rw [← hmem, hlist] at hr
            exact List.mem_singleton.1 hr
        | cons q' rest =>
            refine .inr ⟨fun r hr => ?_, decideCandidate_eq hfew hlist⟩
            have hq' : q' ∈ candidates (authorisedSet authorised) p :=
              (hmem q').1 (hlist ▸ List.mem_cons_of_mem _ List.mem_cons_self)
            rw [hr] at hq hq'
            rw [hlist] at hnd
            have : q = q' := (Set.mem_singleton_iff.1 hq).trans (Set.mem_singleton_iff.1 hq').symm
            exact (List.nodup_cons.1 hnd).1 (this ▸ List.mem_cons_self)

end Readings

/-! ## The code and the policy -/

section Decision

variable {A : Set String} {H : List (String × ℚ)}

/-- Of two lists that begin apart, the shorter beginning is one of the longer. -/
theorem first_unique {α : Type} {bad : α → Prop} {before before' after after' : List α} {a a' : α}
    (h : before ++ a :: after = before' ++ a' :: after') (hbefore : ∀ b ∈ before, bad b)
    (hbefore' : ∀ b ∈ before', bad b) (ha : ¬ bad a) (ha' : ¬ bad a') :
    before = before' ∧ a = a' := by
  induction before generalizing before' with
  | nil =>
      cases before' with
      | nil =>
          cases h
          exact ⟨rfl, rfl⟩
      | cons b' before' =>
          cases h
          exact absurd (hbefore' _ List.mem_cons_self) ha
  | cons b before ih =>
      cases before' with
      | nil =>
          cases h
          exact absurd (hbefore _ List.mem_cons_self) ha'
      | cons b' before' =>
          obtain ⟨rfl, htail⟩ := List.cons.inj h
          obtain ⟨rfl, rfl⟩ := ih htail (fun x hx => hbefore x (List.mem_cons_of_mem _ hx))
            fun x hx => hbefore' x (List.mem_cons_of_mem _ hx)
          exact ⟨rfl, rfl⟩

theorem FirstQualified.unique {p p' : String} (h : FirstQualified A H p)
    (h' : FirstQualified A H p') : p = p' := by
  obtain ⟨hp, before, after, heq, hbefore⟩ := h
  obtain ⟨hp', before', after', heq', hbefore'⟩ := h'
  exact (first_unique (heq ▸ heq') hbefore hbefore'
    (not_not.2 hp) (not_not.2 hp')).2

/-- The policy decides in one way. -/
theorem Policy.unique {d d' : MatchDecision} (h : Policy A H d) (h' : Policy A H d') : d = d' := by
  have hsome : ∀ {before after : List (String × ℚ)} {p : String} {c : ℚ},
      H = before ++ (p, c) :: after → p ∈ A → ¬ ∀ r ∈ H, r.1 ∉ A :=
    fun hH hp hnone => hnone _ (hH ▸ List.mem_append_right _ List.mem_cons_self) hp
  cases h with
  | exact hH hbefore hp =>
      cases h' with
      | exact hH' hbefore' hp' =>
          obtain ⟨-, heq⟩ := first_unique (hH ▸ hH')
            hbefore hbefore' (not_not.2 hp) (not_not.2 hp')
          cases heq
          rfl
      | confusion hnone => exact absurd hnone (hsome hH hp)
      | ambiguous hnone => exact absurd hnone (hsome hH hp)
      | noMatch hnone => exact absurd hnone (hsome hH hp)
  | confusion hnone hfirst hone hmax =>
      cases h' with
      | exact hH hbefore hp => exact absurd hnone (hsome hH hp)
      | confusion _ hfirst' hone' hmax' =>
          cases hfirst.unique hfirst'
          cases Set.singleton_injective (hone.symm.trans hone')
          cases hmax.unique hmax'
          rfl
      | ambiguous _ hfirst' hmany =>
          cases hfirst.unique hfirst'
          exact absurd hone (hmany _)
      | noMatch _ hno => exact absurd hfirst.1 (hno _)
  | ambiguous hnone hfirst hmany hmax =>
      cases h' with
      | exact hH hbefore hp => exact absurd hnone (hsome hH hp)
      | confusion _ hfirst' hone =>
          cases hfirst.unique hfirst'
          exact absurd hone (hmany _)
      | ambiguous _ hfirst' _ hmax' =>
          cases hfirst.unique hfirst'
          cases hmax.unique hmax'
          rfl
      | noMatch _ hno => exact absurd hfirst.1 (hno _)
  | noMatch hnone hno =>
      cases h' with
      | exact hH hbefore hp => exact absurd hnone (hsome hH hp)
      | confusion _ hfirst => exact absurd hfirst.1 (hno _)
      | ambiguous _ hfirst => exact absurd hfirst.1 (hno _)
      | noMatch => rfl

end Decision

/-- The code comes to a decision of the policy. -/
theorem policy_decideAccess (observations : List PlateObservation) (authorised : List String) :
    Policy (authorisedSet authorised) (highReadings observations)
      (decideAccess observations authorised) := by
  have hplates : ∀ r ∈ highReadings observations, r.1 ≠ "" := by
    intro r hr
    rw [highReadings_eq] at hr
    obtain ⟨q, hq, rfl⟩ := List.mem_map.1 hr
    have := (List.mem_filter.1 hq).2
    simp only [counts, Bool.and_eq_true, bne_iff_ne] at this
    exact this.1
  have hfind : (normalisedObservations observations).find? (fun r => r.1 != "" &&
      decide (r.1 ∈ authorisedPlates authorised) && decide (minExactConfidence ≤ r.2.confidence)) =
      ((normalisedObservations observations).filter counts).find?
        fun r => decide (r.1 ∈ authorisedPlates authorised) := by
    rw [← find?_counts _ fun plate => decide (plate ∈ authorisedPlates authorised)]
    refine congrArg (fun f => List.find? f _) (funext fun r => ?_)
    rw [counts, Bool.and_right_comm]
    rfl
  unfold decideAccess
  dsimp only
  rw [← authorisedPlates, hfind, findSome?_candidatePlates]
  cases hexact : ((normalisedObservations observations).filter counts).find?
      fun r => decide (r.1 ∈ authorisedPlates authorised) with
  | some r =>
      obtain ⟨hr, before, after, hsplit, hbefore⟩ := List.find?_eq_some_iff_append.1 hexact
      refine @Policy.exact _ _ (before.map fun r => (r.1, r.2.confidence))
        (after.map fun r => (r.1, r.2.confidence)) _ _ ?_ ?_
        (mem_authorisedPlates.1 (of_decide_eq_true hr))
      · rw [highReadings_eq, hsplit, List.map_append, List.map_cons]
      · intro q hq
        obtain ⟨x, hx, rfl⟩ := List.mem_map.1 hq
        have := hbefore x hx
        simpa [mem_authorisedPlates] using this
  | none =>
      have hnone : ∀ r ∈ highReadings observations, r.1 ∉ authorisedSet authorised := by
        intro r hr
        rw [highReadings_eq] at hr
        obtain ⟨q, hq, rfl⟩ := List.mem_map.1 hr
        have := List.find?_eq_none.1 hexact q hq
        simpa [mem_authorisedPlates] using this
      have hcases : ∀ p ∈ (highReadings observations).map Prod.fst, p ≠ "" := by
        intro p hp
        obtain ⟨r, hr, rfl⟩ := List.mem_map.1 hp
        exact hplates r hr
      cases hfuzzy : ((highReadings observations).map Prod.fst).findSome?
          (decideCandidate (normalisedObservations observations) (authorisedPlates authorised)) with
      | none =>
          refine .noMatch hnone fun p hq => ?_
          have hp : p ∈ (highReadings observations).map Prod.fst :=
            List.count_pos_iff.1 (by have := hq.1; omega)
          have hnothing := List.findSome?_eq_none_iff.1 hfuzzy p hp
          rcases decideCandidate_cases authorised (hcases p hp) with
            ⟨hnot, -⟩ | ⟨-, c, -, ⟨q, -, hd⟩ | ⟨-, hd⟩⟩
          · exact hnot hq
          · cases hnothing.symm.trans hd
          · cases hnothing.symm.trans hd
      | some d =>
          obtain ⟨before, p, after, hsplit, hd, hbefore⟩ := List.findSome?_eq_some_iff.1 hfuzzy
          have hmem : ∀ q ∈ before ++ p :: after, q ≠ "" := hsplit ▸ hcases
          have hfirst : ∀ q ∈ before, ¬ Qualifies (authorisedSet authorised)
              (highReadings observations) q := by
            intro q hq hqual
            have hnothing := hbefore q hq
            rcases decideCandidate_cases authorised
                (hmem q (List.mem_append_left _ hq)) with ⟨hnot, -⟩ | ⟨-, c, -, ⟨q', -, hd⟩ | ⟨-, hd⟩⟩
            · exact hnot hqual
            · cases hnothing.symm.trans hd
            · cases hnothing.symm.trans hd
          rcases decideCandidate_cases authorised
              (hmem p (List.mem_append_right _ List.mem_cons_self)) with
            ⟨-, hnothing⟩ | ⟨hqual, c, hmax, ⟨q, hone, hd'⟩ | ⟨hmany, hd'⟩⟩
          · cases hnothing.symm.trans hd
          · cases hd.symm.trans hd'
            exact .confusion hnone ⟨hqual, before, after, hsplit, hfirst⟩ hone hmax
          · cases hd.symm.trans hd'
            exact .ambiguous hnone ⟨hqual, before, after, hsplit, hfirst⟩ hmany hmax

/-- `decide_access` decides what the policy decides, and so the order, the number and
the form of the authorised plates and the readings that do not count make no
difference. -/
theorem decideAccess_policy (observations : List PlateObservation) (authorised : List String) :
    (∀ d, Policy (authorisedSet authorised) (highReadings observations) d ↔
      decideAccess observations authorised = d) ∧
    ∀ observations' authorised', authorisedSet authorised' = authorisedSet authorised →
      highReadings observations' = highReadings observations →
      decideAccess observations' authorised' = decideAccess observations authorised := by
  have hcode := policy_decideAccess observations authorised
  refine ⟨fun d => ⟨fun h => hcode.unique h, fun h => h ▸ hcode⟩, ?_⟩
  intro observations' authorised' hA hH
  have hcode' := policy_decideAccess observations' authorised'
  rw [hA, hH] at hcode'
  exact hcode'.unique hcode

end GateController
