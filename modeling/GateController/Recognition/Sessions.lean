import GateController.Recognition.Client

/-!
# Where the sessions are

Every session that has come into being is in one place: it is installed, or one call is about
to settle or to close it, or it has been closed.  Each operation moves at most one session from
one place to another, so this is kept by any interleaving.

A call that created a session can install it only if the generation is still the one that it
read first.  `abandon_in_flight` and `close` raise the generation, so no call that looked before
installs a session after.
-/

namespace GateController

open Data Effects

namespace PlateRecognizerClient

/-! ## Owners -/

section Owners

variable {Owner Resource : Type} {owns owns' : Owner → Resource → Prop}
  {there there' : Resource → Prop}

/-- Every resource that is there has one owner, and no other has any. -/
structure Owned (owns : Owner → Resource → Prop) (there : Resource → Prop) : Prop where
  present : ∀ {o r}, owns o r → there r
  owner : ∀ {r}, there r → ∃ o, owns o r
  unique : ∀ {o o' r}, owns o r → owns o' r → o = o'

/-- No resource changes hands. -/
theorem Owned.kept (h : Owned owns there) (howns : ∀ o r, owns' o r ↔ owns o r) :
    Owned owns' there where
  present ho := h.present ((howns _ _).1 ho)
  owner hr := by
    obtain ⟨o, ho⟩ := h.owner hr
    exact ⟨o, (howns o _).2 ho⟩
  unique ho ho' := h.unique ((howns _ _).1 ho) ((howns _ _).1 ho')

/-- What two owners have are different resources. -/
theorem Owned.apart (h : Owned owns there) {o p : Owner} {r t : Resource} (hr : owns o r)
    (ht : owns p t) (hne : p ≠ o) : t ≠ r := by
  rintro rfl
  exact hne (h.unique ht hr)

/-- One resource, which may be new, goes to a new owner. -/
theorem Owned.moved (h : Owned owns there) {r : Resource} {o : Owner}
    (hthere : ∀ t, there' t ↔ there t ∨ t = r) (hnew : ∀ t, owns' o t ↔ t = r ∨ owns o t)
    (hothers : ∀ p, p ≠ o → ∀ t, owns' p t ↔ t ≠ r ∧ owns p t) : Owned owns' there' where
  present {p t} hp := by
    rw [hthere]
    by_cases heq : p = o
    · subst heq
      exact ((hnew t).1 hp).symm.imp_left h.present
    · exact .inl (h.present ((hothers p heq t).1 hp).2)
  owner {t} ht := by
    by_cases heq : t = r
    · exact ⟨o, (hnew t).2 (.inl heq)⟩
    · obtain ⟨p, hp⟩ := h.owner (((hthere t).1 ht).resolve_right heq)
      by_cases hpo : p = o
      · subst hpo
        exact ⟨p, (hnew t).2 (.inr hp)⟩
      · exact ⟨p, (hothers p hpo t).2 ⟨heq, hp⟩⟩
  unique {p q t} hp hq := by
    by_contra hne
    by_cases hpo : p = o
    · subst hpo
      obtain ⟨htr, hq⟩ := (hothers q (Ne.symm hne) t).1 hq
      exact hne (h.unique (((hnew t).1 hp).resolve_left htr) hq)
    · obtain ⟨htr, hp⟩ := (hothers p hpo t).1 hp
      by_cases hqo : q = o
      · subst hqo
        exact hne (h.unique hp (((hnew t).1 hq).resolve_left htr))
      · exact hne (h.unique hp ((hothers q hqo t).1 hq).2)

end Owners

/-! ## What is watched of a call -/

/-- How far a call has come. -/
inductive Stage : Type where
  | begun
  /-- It has looked, and has no session of its own. -/
  | looked (generation : Nat)
  /-- It has created a session and will settle what becomes of it. -/
  | holding (generation : Nat) (session : Session)
  /-- It will close what it has in hand. -/
  | closing (session : Option Session)
  | ready

/-- What the call has in hand. -/
def Stage.holds : Stage → Option Session
  | .holding _ session => some session
  | .closing session => session
  | _ => none

/-- The generation that the call has read, as long as it may install a session. -/
def Stage.generation : Stage → Option Nat
  | .looked generation => some generation
  | .holding generation _ => some generation
  | _ => none

/-- The stage after an operation. -/
def Stage.next : Stage → (e : ClientEff) → Except ClientExc e.Ans → Stage
  | _, .look, .ok seen => .looked seen.1
  | .looked generation, .create, .ok created => .holding generation created
  | _, .settle _ _, .ok .installed => .ready
  | _, .settle _ created, .ok _ => .closing (some created)
  | _, .detach, .ok session => .closing session
  | _, .shut, .ok (some session) => .closing session
  | _, .shut, .ok none => .ready
  | _, .closeSession _, _ => .ready
  | stage, _, _ => stage

@[simp] theorem Stage.next_check (stage : Stage) (generation : Nat) (r : Except ClientExc Unit) :
    stage.next (.check generation) r = stage := by
  cases stage <;> rfl

@[simp] theorem Stage.next_post (stage : Stage) (session : Session) (path : String)
    (r : Except ClientExc Response) : stage.next (.post session path) r = stage := by
  cases stage <;> rfl

/-- What a call may do at a stage. -/
def Stage.allow : Stage → ClientEff → Prop
  | stage, .look => stage = .begun
  | stage, .detach => stage = .begun
  | stage, .shut => stage = .begun
  | stage, .create => ∃ generation, stage = .looked generation
  | stage, .settle generation created => stage = .holding generation created
  | stage, .closeSession session => stage = .closing session
  | stage, .check _ => stage.holds = none
  | stage, .post _ _ => stage.holds = none

/-- Settling a session and closing one do not raise. -/
def Stage.expect : (e : ClientEff) → Except ClientExc e.Ans → Prop
  | .settle _ _, r => ∃ settled, r = .ok settled
  | _, _ => True

/-- What is watched of a call. -/
def watch : Protocol ClientEff ClientEff.Ans ClientExc ClientCall Stage where
  start _ := .begun
  next := Stage.next
  allow := Stage.allow
  expect _ := Stage.expect

/-- A call that ends has nothing in hand. -/
def EmptyHanded {ρ : Type} (stage : Stage) (_ : Except ClientExc ρ) : Prop := stage.holds = none

theorem obtainSession_obeys (generation : Nat) :
    Obeys watch EmptyHanded (.looked generation) (obtainSession generation) := by
  unfold obtainSession op
  rw [Obeys.bind_iff]
  refine Obeys.perform ⟨generation, rfl⟩ fun r _ => ?_
  cases r with
  | error x => exact rfl
  | ok created =>
      dsimp only
      rw [Obeys.bind_iff]
      refine Obeys.perform rfl fun r hr => ?_
      obtain ⟨settled, rfl⟩ := hr
      cases settled with
      | installed => exact rfl
      | closed => exact ⟨rfl, fun r _ => by cases r <;> exact rfl⟩
      | abandoned => exact ⟨rfl, fun r _ => by cases r <;> exact rfl⟩
      | joined session => exact ⟨rfl, fun r _ => by cases r <;> exact rfl⟩

theorem recognise_obeys (path : String) :
    Obeys watch EmptyHanded .begun (recognise path) := by
  -- What follows the section that looks only checks and posts.
  have hrest : ∀ (generation : Nat) (session : Session) (stage : Stage), stage.holds = none →
      Obeys watch EmptyHanded stage (do
        op (.check generation)
        let response ← op (.post session path)
        Prog.ofExcept (observationOf response)) := by
    intro generation session stage hstage
    unfold op
    rw [Obeys.bind_iff]
    refine Obeys.perform hstage fun r _ => ?_
    cases r with
    | error x => exact hstage
    | ok u =>
        dsimp only
        rw [Obeys.bind_iff]
        refine Obeys.perform hstage fun r _ => ?_
        cases r with
        | error x => exact hstage
        | ok response => exact Obeys.ofExcept_iff.2 hstage
  unfold recognise
  rw [Obeys.bind_iff]
  refine Obeys.perform rfl fun r _ => ?_
  cases r with
  | error x => exact rfl
  | ok seen =>
      obtain ⟨generation, session⟩ := seen
      cases session with
      | some session => exact hrest generation session _ rfl
      | none =>
          exact Obeys.bind (obtainSession_obeys generation)
            (fun stage session hstage => hrest generation session stage hstage)
            fun stage x hstage => hstage

theorem abandonInFlight_obeys : Obeys watch EmptyHanded .begun abandonInFlight := by
  unfold abandonInFlight op
  rw [Obeys.bind_iff]
  refine Obeys.perform rfl fun r _ => ?_
  cases r with
  | error x => exact rfl
  | ok session => exact ⟨rfl, fun r _ => by cases r <;> exact rfl⟩

theorem close_obeys : Obeys watch EmptyHanded .begun close := by
  unfold close op
  rw [Obeys.bind_iff]
  refine Obeys.perform rfl fun r _ => ?_
  cases r with
  | error x => exact rfl
  | ok taken =>
      cases taken with
      | none => exact rfl
      | some session => exact ⟨rfl, fun r _ => by cases r <;> exact rfl⟩

/-- Every method goes through the stages. -/
theorem program_obeys (call : ClientCall) : Obeys watch EmptyHanded .begun (program call) := by
  cases call with
  | recognise path =>
      exact Obeys.bind (recognise_obeys path) (fun _ _ h => h) fun _ _ h => h
  | abandonInFlight =>
      exact Obeys.bind abandonInFlight_obeys (fun _ _ h => h) fun _ _ h => h
  | close => exact Obeys.bind close_obeys (fun _ _ h => h) fun _ _ h => h

/-! ## What an operation moves -/

/-- What an operation of a call moves, by what the call has in hand before and after. -/
inductive Handover (s s' : PlateRecognizerClient) (before after : Option Session) : Prop where
  | kept (hsession : s'.session = s.session) (hmade : s'.made = s.made)
      (hdisposed : s'.disposed = s.disposed) (hhand : after = before)
  | created (hbefore : before = none) (hsession : s'.session = s.session)
      (hmade : s'.made = s.made + 1) (hdisposed : s'.disposed = s.disposed)
      (hhand : after = some s.made)
  | installed {session : Session} (hbefore : before = some session) (hempty : s.session = none)
      (hsession : s'.session = some session) (hmade : s'.made = s.made)
      (hdisposed : s'.disposed = s.disposed) (hhand : after = none)
  | detached (hbefore : before = none) (hsession : s'.session = none) (hmade : s'.made = s.made)
      (hdisposed : s'.disposed = s.disposed) (hhand : after = s.session)
  | disposed (hsession : s'.session = s.session) (hmade : s'.made = s.made)
      (hdisposed : s'.disposed = before.toList ++ s.disposed) (hhand : after = none)

/-- Every operation moves at most one session. -/
theorem handover_of_exec {env : ClientEnv} {s s' : PlateRecognizerClient} {stage : Stage}
    {e : ClientEff} {r : Except ClientExc e.Ans} (hallow : stage.allow e)
    (hexec : exec env s e = (r, s')) : Handover s s' stage.holds (stage.next e r).holds := by
  cases e with
  | look =>
      cases hallow
      rw [exec] at hexec
      split at hexec
      next =>
        cases hexec
        exact .kept rfl rfl rfl rfl
      next =>
        cases hexec
        exact .kept rfl rfl rfl rfl
  | create =>
      obtain ⟨generation, rfl⟩ := hallow
      rw [exec] at hexec
      split at hexec
      next =>
        cases hexec
        exact .created rfl rfl rfl rfl rfl
      next =>
        cases hexec
        exact .kept rfl rfl rfl rfl
  | settle generation created =>
      cases hallow
      rw [exec] at hexec
      split at hexec
      next =>
        cases hexec
        exact .kept rfl rfl rfl rfl
      next =>
        split at hexec
        next =>
          cases hexec
          exact .kept rfl rfl rfl rfl
        next =>
          split at hexec
          next hempty =>
            cases hexec
            exact .installed rfl hempty rfl rfl rfl rfl
          next =>
            cases hexec
            exact .kept rfl rfl rfl rfl
  | check generation =>
      rw [exec] at hexec
      rw [Stage.next_check]
      split at hexec
      next =>
        cases hexec
        exact .kept rfl rfl rfl rfl
      next =>
        split at hexec
        next =>
          cases hexec
          exact .kept rfl rfl rfl rfl
        next =>
          cases hexec
          exact .kept rfl rfl rfl rfl
  | post session path =>
      rw [Stage.next_post]
      cases hexec
      exact .kept rfl rfl rfl rfl
  | detach =>
      cases hallow
      cases hexec
      exact .detached rfl rfl rfl rfl rfl
  | shut =>
      cases hallow
      rw [exec] at hexec
      split at hexec
      next =>
        cases hexec
        exact .kept rfl rfl rfl rfl
      next =>
        cases hexec
        exact .detached rfl rfl rfl rfl rfl
  | closeSession session =>
      cases hallow
      cases hexec
      exact .disposed rfl rfl rfl rfl

/-! ## One owner -/

/-- Where a session can be. -/
inductive Owner : Type where
  | client
  | call (c : CallId)
  | closed

/-- Where a session is, if the calls have these in hand. -/
def Owns (s : PlateRecognizerClient) (hand : CallId → Option Session) : Owner → Session → Prop
  | .client, session => s.session = some session
  | .call c, session => hand c = some session
  | .closed, session => session ∈ s.disposed

/-- Every session is in one place, and none is closed twice. -/
structure Kept (s : PlateRecognizerClient) (hand : CallId → Option Session) : Prop where
  owned : Owned (Owns s hand) (· < s.made)
  once : s.disposed.Nodup

/-- Nothing is in another place. -/
theorem Kept.same {s s' : PlateRecognizerClient} {hand hand' : CallId → Option Session}
    (h : Kept s hand) (hsession : s'.session = s.session) (hmade : s'.made = s.made)
    (hdisposed : s'.disposed = s.disposed) (hhand : ∀ d, hand' d = hand d) : Kept s' hand' := by
  obtain rfl : hand' = hand := funext hhand
  refine ⟨?_, hdisposed ▸ h.once⟩
  rw [hmade]
  refine h.owned.kept fun o session => ?_
  cases o with
  | client => simp only [Owns, hsession]
  | call d => exact Iff.rfl
  | closed => simp only [Owns, hdisposed]

/-- A session that has come into being is one of those. -/
theorem made_iff {made made' session : Nat} (hmade : made' = made) (h : session < made) (t : Nat) :
    t < made' ↔ t < made ∨ t = session := by omega

/-- An operation keeps every session in one place. -/
theorem Kept.handover {s s' : PlateRecognizerClient} {hand hand' : CallId → Option Session}
    {c : CallId} (h : Kept s hand) (hothers : ∀ d, d ≠ c → hand' d = hand d)
    (hmove : Handover s s' (hand c) (hand' c)) : Kept s' hand' := by
  -- The calls that do nothing keep what they have, if that is not what is moved.
  have hcalls : ∀ d, d ≠ c → ∀ r, (∀ t, hand d = some t → t ≠ r) →
      ∀ t, hand' d = some t ↔ t ≠ r ∧ hand d = some t := by
    intro d hd r hapart t
    rw [hothers d hd]
    exact ⟨fun ht => ⟨hapart t ht, ht⟩, fun ht => ht.2⟩
  cases hmove with
  | kept hsession hmade hdisposed hhand =>
      refine h.same hsession hmade hdisposed fun d => ?_
      by_cases hd : d = c
      · rw [hd, hhand]
      · exact hothers d hd
  | created hbefore hsession hmade hdisposed hhand =>
      have hnew : ∀ {o t}, Owns s hand o t → t ≠ s.made := fun ho => Nat.ne_of_lt (h.owned.present ho)
      have hthere : ∀ t, t < s'.made ↔ t < s.made ∨ t = s.made := fun t => by omega
      refine ⟨h.owned.moved (o := .call c) hthere (fun t => ?_)
        fun p hp t => ?_, hdisposed ▸ h.once⟩
      · simp [Owns, hhand, hbefore, eq_comm]
      · cases p with
        | client =>
            simp only [Owns, hsession]
            exact ⟨fun ht => ⟨hnew (o := .client) ht, ht⟩, fun ht => ht.2⟩
        | call d =>
            exact hcalls d (fun hd => hp (hd ▸ rfl)) s.made (fun t ht => hnew (o := .call d) ht) t
        | closed =>
            simp only [Owns, hdisposed]
            exact ⟨fun ht => ⟨hnew (o := .closed) ht, ht⟩, fun ht => ht.2⟩
  | @installed x hbefore hempty hsession hmade hdisposed hhand =>
      have hx : Owns s hand (.call c) x := hbefore
      have hthere := made_iff hmade (h.owned.present hx)
      refine ⟨h.owned.moved (o := .client) hthere (fun t => ?_)
        fun p hp t => ?_, hdisposed ▸ h.once⟩
      · simp [Owns, hsession, hempty, eq_comm]
      · cases p with
        | client => exact absurd rfl hp
        | call d =>
            by_cases hd : d = c
            · subst hd
              simp [Owns, hhand, hbefore, eq_comm]
            · exact hcalls d hd x (fun t ht =>
                h.owned.apart hx (p := .call d) ht fun heq => hd (by cases heq; rfl)) t
        | closed =>
            simp only [Owns, hdisposed]
            exact ⟨fun ht => ⟨h.owned.apart hx (p := .closed) ht (by simp), ht⟩, fun ht => ht.2⟩
  | detached hbefore hsession hmade hdisposed hhand =>
      cases hinstalled : s.session with
      | none =>
          refine h.same (hsession.trans hinstalled.symm) hmade hdisposed fun d => ?_
          by_cases hd : d = c
          · rw [hd, hhand, hbefore, hinstalled]
          · exact hothers d hd
      | some x =>
          have hx : Owns s hand .client x := hinstalled
          have hthere := made_iff hmade (h.owned.present hx)
          refine ⟨h.owned.moved (o := .call c) hthere (fun t => ?_)
            fun p hp t => ?_, hdisposed ▸ h.once⟩
          · simp [Owns, hhand, hbefore, hinstalled, eq_comm]
          · cases p with
            | client => simp [Owns, hsession, hinstalled, eq_comm]
            | call d =>
                exact hcalls d (fun hd => hp (hd ▸ rfl)) x (fun t ht =>
                  h.owned.apart hx (p := .call d) ht (by simp)) t
            | closed =>
                simp only [Owns, hdisposed]
                exact ⟨fun ht => ⟨h.owned.apart hx (p := .closed) ht (by simp), ht⟩,
                  fun ht => ht.2⟩
  | disposed hsession hmade hdisposed hhand =>
      cases hbefore : hand c with
      | none =>
          refine h.same hsession hmade (by simpa [hbefore] using hdisposed) fun d => ?_
          by_cases hd : d = c
          · rw [hd, hhand, hbefore]
          · exact hothers d hd
      | some x =>
          have hx : Owns s hand (.call c) x := hbefore
          have hthere := made_iff hmade (h.owned.present hx)
          have hdisposed : s'.disposed = x :: s.disposed := by rw [hdisposed, hbefore]; rfl
          refine ⟨h.owned.moved (o := .closed) hthere (fun t => ?_)
            fun p hp t => ?_, ?_⟩
          · simp [Owns, hdisposed]
          · cases p with
            | client =>
                simp only [Owns, hsession]
                exact ⟨fun ht => ⟨h.owned.apart hx (p := .client) ht (by simp), ht⟩,
                  fun ht => ht.2⟩
            | call d =>
                by_cases hd : d = c
                · subst hd
                  simp [Owns, hhand, hbefore, eq_comm]
                · exact hcalls d hd x (fun t ht =>
                    h.owned.apart hx (p := .call d) ht fun heq => hd (by cases heq; rfl)) t
            | closed => exact absurd rfl hp
          · rw [hdisposed]
            exact List.nodup_cons.2
              ⟨fun hmem => h.owned.apart hx (p := .closed) hmem (by simp) rfl, h.once⟩

/-! ## The closed client -/

/-- A client that is closed stays closed and has no session. -/
theorem closed_of_exec {env : ClientEnv} {s s' : PlateRecognizerClient} {e : ClientEff}
    {r : Except ClientExc e.Ans} (hexec : exec env s e = (r, s'))
    (hclosed : s.closed = true → s.session = none) :
    (s.closed = true → s'.closed = true) ∧ (e = .shut → s'.closed = true) ∧
      (s'.closed = true → s'.session = none) := by
  cases e with
  | look =>
      rw [exec] at hexec
      split at hexec <;> cases hexec <;> exact ⟨id, fun h => (by cases h), hclosed⟩
  | create =>
      rw [exec] at hexec
      split at hexec <;> cases hexec <;> exact ⟨id, fun h => (by cases h), hclosed⟩
  | settle generation created =>
      rw [exec] at hexec
      split at hexec
      next =>
        cases hexec
        exact ⟨id, fun h => (by cases h), hclosed⟩
      next hopen =>
        split at hexec
        next =>
          cases hexec
          exact ⟨id, fun h => (by cases h), hclosed⟩
        next =>
          split at hexec
          next =>
            cases hexec
            exact ⟨id, fun h => (by cases h), fun h => absurd h hopen⟩
          next =>
            cases hexec
            exact ⟨id, fun h => (by cases h), hclosed⟩
  | check generation =>
      rw [exec] at hexec
      split at hexec
      next =>
        cases hexec
        exact ⟨id, fun h => (by cases h), hclosed⟩
      next =>
        split at hexec <;> cases hexec <;> exact ⟨id, fun h => (by cases h), hclosed⟩
  | post session path =>
      cases hexec
      exact ⟨id, fun h => (by cases h), hclosed⟩
  | detach =>
      cases hexec
      exact ⟨id, fun h => (by cases h), fun _ => rfl⟩
  | shut =>
      rw [exec] at hexec
      split at hexec
      next hshut =>
        cases hexec
        exact ⟨id, fun _ => hshut, hclosed⟩
      next =>
        cases hexec
        exact ⟨fun _ => rfl, fun _ => rfl, fun _ => rfl⟩
  | closeSession session =>
      cases hexec
      exact ⟨id, fun h => (by cases h), hclosed⟩

/-! ## Any interleaving -/

/-- What a call has in hand. -/
def inHand (log : List ClientEvent) (c : CallId) : Option Session :=
  (ghost (fun _ => watch) c log).bind Stage.holds

theorem inHand_eq {log : List ClientEvent} {c : CallId} {stage : Stage}
    (h : ghost (fun _ => watch) c log = some stage) : inHand log c = stage.holds := by
  rw [inHand, h, Option.bind_some]

/-- What holds at any time. -/
structure Custody (s : PlateRecognizerClient) (log : List ClientEvent) : Prop where
  kept : Kept s (inHand log)
  empty : s.closed = true → s.session = none
  closed : ∀ c r, .did c .shut r ∈ log → s.closed = true
  live : ∀ c, inHand log c ≠ none → Live c log

/-- The process goes on.  A crash ends the client with it. -/
def NoCrash (_ : ClientWorld) (ch : Choice ClientEnv ClientCall) : Prop :=
  ∀ p env, ch ≠ .crash p env

theorem custody : Invariant machine (fun _ => watch) (fun _ => EmptyHanded) NoCrash Custody where
  obeys _ _ call _ _ _ _ := program_obeys call
  began w c call s' _ h _ hnew haccept := by
    cases haccept
    have hself : inHand w.log c = none := by
      cases hghost : ghost (fun _ => watch) c w.log with
      | none => rw [inHand, hghost, Option.bind_none]
      | some stage => exact absurd (ghost_isSome.1 (by rw [hghost]; rfl)) hnew
    have hsame : ∀ d, inHand (.began c call :: w.log) d = inHand w.log d := by
      intro d
      by_cases hd : d = c
      · subst hd
        rw [hself, inHand_eq ghost_began_self]
        rfl
      · rw [inHand, inHand, ghost_began_ne (Ne.symm hd)]
    refine ⟨h.kept.same rfl rfl rfl hsame, h.empty, fun d r hmem => ?_, fun d hhand => ?_⟩
    · rcases List.mem_cons.1 hmem with heq | hmem
      · cases heq
      · exact h.closed d r hmem
    · rw [hsame] at hhand
      exact .inr (h.live d hhand)
  did w c env e k stage r s' _ h _ _ hlive hghost hallow hexec := by
    have hexec : exec env w.state e = (r, s') := Option.some.inj hexec
    obtain ⟨hstays, hshut, hempty⟩ := closed_of_exec hexec h.empty
    have hbefore := inHand_eq hghost
    have hafter := inHand_eq (ghost_did_self (e := e) (r := r) hghost)
    have hothers : ∀ d, d ≠ c → inHand (.did c e r :: w.log) d = inHand w.log d := by
      intro d hd
      rw [inHand, inHand, ghost_did_ne (Ne.symm hd)]
    refine ⟨?_, h.kept.handover hothers ?_, hempty, fun d r' hmem => ?_, fun d hhand => ?_⟩
    · cases e with
      | settle generation created =>
          have hr : r = (exec env w.state (.settle generation created)).1 := by rw [hexec]
          rw [hr, exec]
          split
          next => exact ⟨_, rfl⟩
          next =>
            split
            next => exact ⟨_, rfl⟩
            next => split <;> exact ⟨_, rfl⟩
      | look => trivial
      | create => trivial
      | check generation => trivial
      | post session path => trivial
      | detach => trivial
      | shut => trivial
      | closeSession session => trivial
    · rw [hbefore, hafter]
      exact handover_of_exec hallow hexec
    · rcases List.mem_cons.1 hmem with heq | hmem
      · cases heq
        exact hshut rfl
      · exact hstays (h.closed d r' hmem)
    · by_cases hd : d = c
      · exact hd ▸ hlive
      · rw [hothers d hd] at hhand
        exact h.live d hhand
  ended w c stage r _ h _ hghost hQ := by
    refine ⟨h.kept, h.empty, fun d r' hmem => ?_, fun d hhand => ⟨?_, h.live d hhand⟩⟩
    · rcases List.mem_cons.1 hmem with heq | hmem
      · cases heq
      · exact h.closed d r' hmem
    · rintro rfl
      exact hhand ((inHand_eq hghost).trans hQ)
  crashed _ p env _ _ hok := absurd rfl (hok p env)

/-! ## Generations -/

/-- The generation is only raised, and `abandon_in_flight` raises it. -/
theorem generation_of_exec {env : ClientEnv} {s s' : PlateRecognizerClient} {e : ClientEff}
    {r : Except ClientExc e.Ans} (hexec : exec env s e = (r, s')) :
    s.sessionGeneration ≤ s'.sessionGeneration ∧
      (e = .detach → s.sessionGeneration < s'.sessionGeneration) := by
  cases e with
  | look =>
      rw [exec] at hexec
      split at hexec <;> cases hexec <;> exact ⟨le_rfl, fun h => (by cases h)⟩
  | create =>
      rw [exec] at hexec
      split at hexec <;> cases hexec <;> exact ⟨le_rfl, fun h => (by cases h)⟩
  | settle generation created =>
      rw [exec] at hexec
      split at hexec
      next =>
        cases hexec
        exact ⟨le_rfl, fun h => (by cases h)⟩
      next =>
        split at hexec
        next =>
          cases hexec
          exact ⟨le_rfl, fun h => (by cases h)⟩
        next => split at hexec <;> cases hexec <;> exact ⟨le_rfl, fun h => (by cases h)⟩
  | check generation =>
      rw [exec] at hexec
      split at hexec
      next =>
        cases hexec
        exact ⟨le_rfl, fun h => (by cases h)⟩
      next => split at hexec <;> cases hexec <;> exact ⟨le_rfl, fun h => (by cases h)⟩
  | post session path =>
      cases hexec
      exact ⟨le_rfl, fun h => (by cases h)⟩
  | detach =>
      cases hexec
      exact ⟨Nat.le_succ _, fun _ => Nat.lt_succ_self _⟩
  | shut =>
      rw [exec] at hexec
      split at hexec
      next =>
        cases hexec
        exact ⟨le_rfl, fun h => (by cases h)⟩
      next =>
        cases hexec
        exact ⟨Nat.le_succ _, fun h => (by cases h)⟩
  | closeSession session =>
      cases hexec
      exact ⟨le_rfl, fun h => (by cases h)⟩

/-- A session is installed in the generation of the client. -/
theorem generation_of_installed {env : ClientEnv} {s s' : PlateRecognizerClient}
    {generation : Nat} {created : Session}
    (hexec : exec env s (.settle generation created) = (.ok .installed, s')) :
    generation = s.sessionGeneration := by
  rw [exec] at hexec
  split at hexec
  next => cases hexec
  next =>
    split at hexec
    next => cases hexec
    next hsame => exact not_not.1 hsame

/-- The call that looks, if that is what happens. -/
def looks : ClientEvent → Option CallId
  | .did c .look (.ok _) => some c
  | _ => none

theorem looks_did {c d : CallId} {e : ClientEff} {r : Except ClientExc e.Ans}
    (h : looks (.did c e r) = some d) : d = c := by
  cases e with
  | look =>
      cases r with
      | error x => cases h
      | ok seen => exact (Option.some.inj h).symm
  | create => cases h
  | settle generation created => cases h
  | check generation => cases h
  | post session path => cases h
  | detach => cases h
  | shut => cases h
  | closeSession session => cases h

/-- A call does not come back to its beginning. -/
theorem Stage.begun_of_next {stage : Stage} {e : ClientEff} {r : Except ClientExc e.Ans}
    (hallow : stage.allow e) (h : stage.next e r = .begun) (c : CallId) :
    stage = .begun ∧ looks (.did c e r) = none := by
  cases e with
  | look =>
      cases r with
      | error x => exact ⟨hallow, rfl⟩
      | ok seen => cases hallow; cases h
  | create =>
      obtain ⟨generation, rfl⟩ := hallow
      cases r <;> cases h
  | settle generation created =>
      cases hallow
      cases r with
      | error x => cases h
      | ok settled => cases settled <;> cases h
  | check generation => exact ⟨(Stage.next_check stage generation r).symm.trans h, rfl⟩
  | post session path => exact ⟨(Stage.next_post stage session path r).symm.trans h, rfl⟩
  | detach => exact ⟨hallow, rfl⟩
  | shut => exact ⟨hallow, rfl⟩
  | closeSession session =>
      cases hallow
      cases h

/-- A call may install a session if it could before, or has just read the generation. -/
theorem generation_of_next {env : ClientEnv} {s s' : PlateRecognizerClient} {stage : Stage}
    {e : ClientEff} {r : Except ClientExc e.Ans} {generation : Nat} (hallow : stage.allow e)
    (hexec : exec env s e = (r, s')) (h : (stage.next e r).generation = some generation) :
    e ≠ .detach ∧ (stage.generation = some generation ∨
      stage = .begun ∧ generation = s.sessionGeneration) := by
  cases e with
  | look =>
      cases hallow
      rw [exec] at hexec
      split at hexec
      next =>
        cases hexec
        cases h
      next =>
        cases hexec
        exact ⟨fun heq => (by cases heq), .inr ⟨rfl, (Option.some.inj h).symm⟩⟩
  | create =>
      obtain ⟨seen, rfl⟩ := hallow
      cases r <;> exact ⟨fun heq => (by cases heq), .inl h⟩
  | settle seen created =>
      cases hallow
      cases r with
      | error x => exact ⟨fun heq => (by cases heq), .inl h⟩
      | ok settled => cases settled <;> cases h
  | check seen =>
      rw [Stage.next_check] at h
      exact ⟨fun heq => (by cases heq), .inl h⟩
  | post session path =>
      rw [Stage.next_post] at h
      exact ⟨fun heq => (by cases heq), .inl h⟩
  | detach =>
      cases hallow
      cases hexec
      cases h
  | shut =>
      cases hallow
      rw [exec] at hexec
      split at hexec
      next =>
        cases hexec
        cases h
      next =>
        cases hexec
        cases h
  | closeSession session =>
      cases hallow
      cases h

/-- The call has looked. -/
def Looked (c : CallId) (log : List ClientEvent) : Prop := c ∈ log.filterMap looks

/-- The call has not looked before the last `abandon_in_flight`. -/
def Recent (c : CallId) (log : List ClientEvent) : Prop :=
  ∀ later d session earlier, log = later ++ .did d .detach session :: earlier → ¬ Looked c earlier

theorem looked_cons {c : CallId} {ev : ClientEvent} {log : List ClientEvent} :
    Looked c (ev :: log) ↔ looks ev = some c ∨ Looked c log := by
  rw [Looked, Looked, List.filterMap_cons]
  cases looks ev with
  | none => simp
  | some d => simp [eq_comm]

/-- A call that has not looked at all is recent. -/
theorem recent_of_not_looked {c : CallId} {log : List ClientEvent} (h : ¬ Looked c log) :
    Recent c log := by
  rintro later d session earlier rfl hlooked
  refine h ?_
  rw [Looked, List.filterMap_append, List.mem_append, List.filterMap_cons]
  exact .inr hlooked

/-- Another event than an `abandon_in_flight` leaves a recent call recent. -/
theorem Recent.cons {c : CallId} {ev : ClientEvent} {log : List ClientEvent} (h : Recent c log)
    (hev : ∀ d session, ev ≠ .did d .detach session) : Recent c (ev :: log) := by
  intro later d session earlier heq
  rcases List.cons_eq_append_iff.1 heq with ⟨rfl, hcons⟩ | ⟨rest, rfl, hrest⟩
  · exact absurd (List.cons.inj hcons).1.symm (hev d session)
  · exact h rest d session earlier hrest

/-- What holds of the generations at any time. -/
structure Fenced (s : PlateRecognizerClient) (log : List ClientEvent) : Prop where
  fresh : ∀ c, ghost (fun _ => watch) c log = none ∨ ghost (fun _ => watch) c log = some .begun →
    ¬ Looked c log
  generation : ∀ c stage generation, ghost (fun _ => watch) c log = some stage →
    stage.generation = some generation → generation ≤ s.sessionGeneration ∧
      (generation = s.sessionGeneration → Recent c log)
  installs : ∀ later c generation session earlier,
    log = later ++ .did c (.settle generation session) (.ok .installed) :: earlier →
      Recent c earlier

/-- An event that is no operation changes nothing. -/
theorem Fenced.other {s : PlateRecognizerClient} {log : List ClientEvent} {ev : ClientEvent}
    (h : Fenced s log) (hev : ∀ c e r, ev ≠ .did c e r) (hlooks : looks ev = none)
    (hghost : ∀ c, ghost (fun _ => watch) c (ev :: log) = ghost (fun _ => watch) c log ∨
      ghost (fun _ => watch) c log = none ∧
        ghost (fun _ => watch) c (ev :: log) = some .begun) : Fenced s (ev :: log) where
  fresh c hc := by
    rw [looked_cons, hlooks]
    rintro (heq | hlooked)
    · cases heq
    · rcases hghost c with heq | ⟨hnone, -⟩
      · exact h.fresh c (heq ▸ hc) hlooked
      · exact h.fresh c (.inl hnone) hlooked
  generation c stage generation hstage hgeneration := by
    rcases hghost c with heq | ⟨-, hbegun⟩
    · obtain ⟨hle, hrecent⟩ := h.generation c stage generation (heq ▸ hstage) hgeneration
      exact ⟨hle, fun heq => (hrecent heq).cons fun d session => hev d _ _⟩
    · cases hbegun.symm.trans hstage
      cases hgeneration
  installs later c generation session earlier heq := by
    rcases List.cons_eq_append_iff.1 heq with ⟨rfl, hcons⟩ | ⟨rest, rfl, hrest⟩
    · exact absurd (List.cons.inj hcons).1.symm (hev _ _ _)
    · exact h.installs rest c generation session earlier hrest

theorem fenced : Keeps machine (fun _ => watch) (fun _ => EmptyHanded) NoCrash Custody Fenced where
  began w c call s' _ _ h _ hnew haccept := by
    cases haccept
    refine h.other (fun _ _ _ heq => (by cases heq)) rfl fun d => ?_
    by_cases hd : d = c
    · subst hd
      refine .inr ⟨?_, ghost_began_self⟩
      rw [← Option.not_isSome_iff_eq_none, ghost_isSome]
      exact hnew
    · exact .inl (ghost_began_ne (Ne.symm hd))
  did w c env e k stage r s' _ _ h _ _ _ hghost hallow hexec := by
    have hop : exec env w.state e = (r, s') := Option.some.inj hexec
    obtain ⟨hle, hraised⟩ := generation_of_exec hop
    have hafter := ghost_did_self (e := e) (r := r) hghost
    have hothers : ∀ d, d ≠ c →
        ghost (fun _ => watch) d (.did c e r :: w.log) = ghost (fun _ => watch) d w.log :=
      fun d hd => ghost_did_ne (Ne.symm hd)
    have hdetach : ∀ {d}, e ≠ .detach → Recent d w.log → Recent d (.did c e r :: w.log) :=
      fun hne hrecent => hrecent.cons fun d session heq => hne (by cases heq; rfl)
    refine ⟨fun d hd => ?_, fun d stage' generation hstage hgeneration => ?_,
      fun later d generation session earlier heq => ?_⟩
    · rw [looked_cons]
      by_cases hdc : d = c
      · subst hdc
        rw [hafter] at hd
        have hbegun := hd.resolve_left (fun h => (by cases h))
        obtain ⟨rfl, hlooks⟩ := Stage.begun_of_next hallow (Option.some.inj hbegun) d
        rw [hlooks]
        exact fun hlooked => h.fresh d (.inr hghost) (hlooked.resolve_left fun h => (by cases h))
      · rw [hothers d hdc] at hd
        rintro (hlooks | hlooked)
        · exact hdc (looks_did hlooks)
        · exact h.fresh d hd hlooked
    · by_cases hdc : d = c
      · subst hdc
        cases hafter.symm.trans hstage
        obtain ⟨hne, hbefore | ⟨rfl, rfl⟩⟩ := generation_of_next hallow hop hgeneration
        · obtain ⟨hbound, hrecent⟩ := h.generation d stage generation hghost hbefore
          exact ⟨hbound.trans hle, fun heq => hdetach hne (hrecent (by omega))⟩
        · exact ⟨hle, fun _ => hdetach hne (recent_of_not_looked (h.fresh d (.inr hghost)))⟩
      · rw [hothers d hdc] at hstage
        obtain ⟨hbound, hrecent⟩ := h.generation d stage' generation hstage hgeneration
        refine ⟨hbound.trans hle, fun heq => hdetach (fun hne => ?_) (hrecent (by omega))⟩
        have hlt := hraised hne
        omega
    · rcases List.cons_eq_append_iff.1 heq with ⟨rfl, hcons⟩ | ⟨rest, rfl, hrest⟩
      · cases hcons
        cases hallow
        obtain ⟨-, hrecent⟩ := h.generation c _ generation hghost rfl
        exact hrecent (generation_of_installed hop)
      · exact h.installs rest d generation session earlier hrest
  ended w c stage r _ _ h _ _ _ :=
    h.other (fun _ _ _ heq => (by cases heq)) rfl fun d => .inl rfl
  crashed _ p env _ _ _ hok := absurd rfl (hok p env)

/-! ## Runs -/

theorem custody_init (supplied : Bool) : Custody (init supplied) [] := by
  refine ⟨⟨⟨?_, ?_, ?_⟩, ?_⟩, ?_, fun c r h => (by cases h), fun c h => absurd rfl h⟩
  · intro o session h
    cases o with
    | client =>
        cases supplied with
        | true => cases h; exact Nat.one_pos
        | false => cases h
    | call c => cases h
    | closed => cases supplied <;> cases h
  · intro session h
    cases supplied with
    | true =>
        obtain rfl : session = 0 := Nat.lt_one_iff.1 h
        exact ⟨.client, rfl⟩
    | false => exact absurd h (Nat.not_lt_zero session)
  · intro o p session ho hp
    have hclient : ∀ {q}, Owns (init supplied) (inHand []) q session → q = .client := by
      intro q hq
      cases q with
      | client => rfl
      | call c => cases hq
      | closed => cases supplied <;> cases hq
    rw [hclient ho, hclient hp]
  · cases supplied <;> exact List.nodup_nil
  · intro h
    cases supplied <;> cases h

theorem fenced_init (s : PlateRecognizerClient) : Fenced s [] where
  fresh c _ h := by cases h
  generation c stage generation h := by cases h
  installs later c generation session earlier h := by simp at h

/-- The next thing that the call does is to settle what becomes of the session, or to close
it. -/
def AboutTo (w : ClientWorld) (c : CallId) (session : Session) : Prop :=
  (∃ generation k, w.running c = some (.call (.settle generation session) k)) ∨
    ∃ k, w.running c = some (.call (.closeSession (some session)) k)

/-- What a call has in hand is what it is about to settle or to close. -/
theorem aboutTo_iff {w : ClientWorld} (hs : Sound (fun _ => watch) (fun _ => EmptyHanded) w)
    (h : Custody w.state w.log) (c : CallId) (session : Session) :
    AboutTo w c session ↔ inHand w.log c = some session := by
  constructor
  · rintro (⟨generation, k, hrun⟩ | ⟨k, hrun⟩)
    · obtain ⟨stage, hghost, hallow, -⟩ := hs.obeys c _ hrun
      cases hallow
      exact inHand_eq hghost
    · obtain ⟨stage, hghost, hallow, -⟩ := hs.obeys c _ hrun
      cases hallow
      exact inHand_eq hghost
  · intro hhand
    have hlive := h.live c (by rw [hhand]; exact Option.some_ne_none session)
    obtain ⟨p, hrun⟩ := Option.isSome_iff_exists.1 ((hs.live c).2 hlive)
    obtain ⟨stage, hghost, hobeys⟩ := hs.obeys c p hrun
    rw [inHand_eq hghost] at hhand
    cases p with
    | ret a => cases hhand.symm.trans hobeys
    | raise x => cases hhand.symm.trans hobeys
    | call e k =>
        have hallow := hobeys.1
        cases e with
        | look => cases hallow; cases hhand
        | create => obtain ⟨generation, rfl⟩ := hallow; cases hhand
        | settle generation created => cases hallow; cases hhand; exact .inl ⟨generation, k, hrun⟩
        | check generation => cases hhand.symm.trans hallow
        | post s path => cases hhand.symm.trans hallow
        | detach => cases hallow; cases hhand
        | shut => cases hallow; cases hhand
        | closeSession s => cases hallow; cases hhand; exact .inr ⟨k, hrun⟩

/-! ## Which call has it -/

/-- What a call of each method may do. -/
def ClientMay : ClientCall → ClientEff → Prop
  | .recognise _, e => e ≠ .detach ∧ e ≠ .shut
  | .abandonInFlight, e => e = .detach ∨ ∃ session, e = .closeSession session
  | .close, e => e = .shut ∨ ∃ session, e = .closeSession session

theorem only_obtainSession (path : String) (generation : Nat) :
    (obtainSession generation).Only (ClientMay (.recognise path)) := by
  refine Prog.Only.bind (Prog.Only.perform_iff.2 (by simp [ClientMay])) fun created => ?_
  refine Prog.Only.bind (Prog.Only.perform_iff.2 (by simp [ClientMay])) fun settled => ?_
  cases settled with
  | installed => trivial
  | closed => exact Prog.Only.bind (Prog.Only.perform_iff.2 (by simp [ClientMay])) fun _ => trivial
  | abandoned => exact Prog.Only.bind (Prog.Only.perform_iff.2 (by simp [ClientMay])) fun _ => trivial
  | joined session =>
      exact Prog.Only.bind (Prog.Only.perform_iff.2 (by simp [ClientMay])) fun _ => trivial

theorem only_program (call : ClientCall) : (program call).Only (ClientMay call) := by
  cases call with
  | recognise path =>
      have hrest : ∀ (generation : Nat) (session : Session), (do
          op (.check generation)
          let response ← op (.post session path)
          Prog.ofExcept (observationOf response)).Only (ClientMay (.recognise path)) := by
        intro generation session
        refine Prog.Only.bind (Prog.Only.perform_iff.2 (by simp [ClientMay])) fun _ => ?_
        exact Prog.Only.bind (Prog.Only.perform_iff.2 (by simp [ClientMay])) fun _ => by simp
      refine Prog.Only.bind ?_ fun _ => trivial
      refine Prog.Only.bind (Prog.Only.perform_iff.2 (by simp [ClientMay])) fun seen => ?_
      obtain ⟨generation, session⟩ := seen
      cases session with
      | some session => exact hrest generation session
      | none =>
          exact Prog.Only.bind (only_obtainSession path generation)
            fun session => hrest generation session
  | abandonInFlight =>
      refine Prog.Only.bind ?_ fun _ => trivial
      refine Prog.Only.bind (Prog.Only.perform_iff.2 (.inl rfl)) fun session => ?_
      exact Prog.Only.bind (Prog.Only.perform_iff.2 (.inr ⟨_, rfl⟩)) fun _ => trivial
  | close =>
      refine Prog.Only.bind ?_ fun _ => trivial
      refine Prog.Only.bind (Prog.Only.perform_iff.2 (.inl rfl)) fun taken => ?_
      cases taken with
      | none => trivial
      | some session => exact Prog.Only.perform_iff.2 (.inr ⟨_, rfl⟩)

/-- The call that has a session in hand: a `recognise` that created it, or an
`abandon_in_flight` or a `close` that has taken it away and closes it next. -/
inductive Brought (w : ClientWorld) (c : CallId) (session : Session) : Prop where
  | created {path : String} (hcall : .began c (.recognise path) ∈ w.log)
      (hcreated : .did c .create (.ok session) ∈ w.log)
  | detached (hcall : .began c .abandonInFlight ∈ w.log)
      (hdetached : .did c .detach (.ok (some session)) ∈ w.log)
      (hnext : ∃ k, w.running c = some (.call (.closeSession (some session)) k))
  | shut (hcall : .began c .close ∈ w.log)
      (hshut : .did c .shut (.ok (some (some session))) ∈ w.log)
      (hnext : ∃ k, w.running c = some (.call (.closeSession (some session)) k))

section Bring

variable {w : ClientWorld} {c : CallId} {session : Session}

theorem Brought.of_create (h : Machine.Within ClientMay w)
    (hcreated : .did c .create (.ok session) ∈ w.log) : Brought w c session := by
  obtain ⟨call, hcall, hmay⟩ := h.log c _ _ hcreated
  cases call with
  | recognise path => exact .created hcall hcreated
  | abandonInFlight => simp [ClientMay] at hmay
  | close => simp [ClientMay] at hmay

/-- A session comes into the hand of a call when the call creates it or takes it away. -/
theorem taken_of_next {stage : Stage} {e : ClientEff} {r : Except ClientExc e.Ans}
    {log : List ClientEvent} (hallow : stage.allow e) (hbefore : stage.holds ≠ some session)
    (hafter : (stage.next e r).holds = some session) (hmem : .did c e r ∈ log) :
    .did c .create (.ok session) ∈ log ∨ .did c .detach (.ok (some session)) ∈ log ∨
      .did c .shut (.ok (some (some session))) ∈ log := by
  cases e with
  | look =>
      cases hallow
      cases r <;> cases hafter
  | create =>
      obtain ⟨generation, rfl⟩ := hallow
      cases r with
      | error x => cases hafter
      | ok created =>
          cases hafter
          exact .inl hmem
  | settle generation created =>
      cases hallow
      have hhad : (Stage.holding generation created).holds = some created := rfl
      cases r with
      | error x => exact absurd hafter hbefore
      | ok settled =>
          cases settled with
          | installed => cases hafter
          | closed => exact absurd (hhad.trans hafter) hbefore
          | abandoned => exact absurd (hhad.trans hafter) hbefore
          | joined other => exact absurd (hhad.trans hafter) hbefore
  | check generation =>
      rw [Stage.next_check] at hafter
      exact absurd hafter hbefore
  | post other path =>
      rw [Stage.next_post] at hafter
      exact absurd hafter hbefore
  | detach =>
      cases hallow
      cases r with
      | error x => cases hafter
      | ok taken =>
          cases hafter
          exact .inr (.inl hmem)
  | shut =>
      cases hallow
      cases r with
      | error x => cases hafter
      | ok taken =>
          cases taken with
          | none => cases hafter
          | some taken =>
              cases hafter
              exact .inr (.inr hmem)
  | closeSession other =>
      cases hallow
      cases hafter

/-- What a call settles next, it has created. -/
theorem created_of_next {stage : Stage} {e : ClientEff} {r : Except ClientExc e.Ans}
    {log : List ClientEvent} {generation : Nat} (hallow : stage.allow e)
    (hbefore : ∀ generation, stage ≠ .holding generation session)
    (hafter : stage.next e r = .holding generation session) (hmem : .did c e r ∈ log) :
    .did c .create (.ok session) ∈ log := by
  cases e with
  | look =>
      cases hallow
      cases r <;> cases hafter
  | create =>
      obtain ⟨seen, rfl⟩ := hallow
      cases r with
      | error x => cases hafter
      | ok created =>
          cases hafter
          exact hmem
  | settle seen created =>
      cases hallow
      cases r with
      | error x => exact absurd hafter (hbefore generation)
      | ok settled => cases settled <;> cases hafter
  | check seen =>
      rw [Stage.next_check] at hafter
      exact absurd hafter (hbefore generation)
  | post other path =>
      rw [Stage.next_post] at hafter
      exact absurd hafter (hbefore generation)
  | detach =>
      cases hallow
      cases r <;> cases hafter
  | shut =>
      cases hallow
      cases r with
      | error x => cases hafter
      | ok taken => cases taken <;> cases hafter
  | closeSession other =>
      cases hallow
      cases hafter

/-- Only a `recognise` settles, and what the others are about to close they have taken away. -/
theorem brought_of_aboutTo (hs : Sound (fun _ => watch) (fun _ => EmptyHanded) w)
    (hwithin : Machine.Within ClientMay w) (h : AboutTo w c session) : Brought w c session := by
  obtain ⟨generation, k, hrun⟩ | ⟨k, hrun⟩ := h
  · obtain ⟨stage, hghost, hallow, -⟩ := hs.obeys c _ hrun
    cases hallow
    obtain ⟨e, r, earlier, before, hsuffix, hg, hnot, generation', hafter⟩ :=
      hs.lawful.origin (Φ := fun stage => ∃ generation, stage = .holding generation session) hghost
        ⟨generation, rfl⟩ fun call => by rintro ⟨generation, heq⟩; cases heq
    obtain ⟨-, t, ht, hallow, -⟩ := hs.lawful.did hsuffix
    cases hg.symm.trans ht
    exact .of_create hwithin (created_of_next hallow (fun generation heq => hnot ⟨generation, heq⟩)
      hafter (hsuffix.subset List.mem_cons_self))
  · obtain ⟨stage, hghost, hallow, -⟩ := hs.obeys c _ hrun
    cases hallow
    obtain ⟨e, r, earlier, before, hsuffix, hg, hnot, hafter⟩ :=
      hs.lawful.origin (Φ := fun stage => stage.holds = some session) hghost rfl
        fun call heq => by cases heq
    obtain ⟨-, t, ht, hallow, -⟩ := hs.lawful.did hsuffix
    cases hg.symm.trans ht
    obtain hcreated | hdetached | hshut :=
      taken_of_next hallow hnot hafter (hsuffix.subset List.mem_cons_self)
    · exact .of_create hwithin hcreated
    · obtain ⟨call, hcall, hmay⟩ := hwithin.log c _ _ hdetached
      cases call with
      | recognise path => simp [ClientMay] at hmay
      | abandonInFlight => exact .detached hcall hdetached ⟨k, hrun⟩
      | close => simp [ClientMay] at hmay
    · obtain ⟨call, hcall, hmay⟩ := hwithin.log c _ _ hshut
      cases call with
      | recognise path => simp [ClientMay] at hmay
      | abandonInFlight => simp [ClientMay] at hmay
      | close => exact .shut hcall hshut ⟨k, hrun⟩

end Bring

/-- A session is installed, or a call is about to settle or to close it, or it has been closed
once. -/
def IsAt (w : ClientWorld) : Owner → Session → Prop
  | .client, session => w.state.session = some session
  | .call c, session => AboutTo w c session
  | .closed, session => w.state.disposed.count session = 1

/-- A run without a crash. -/
theorem admits_noCrash {choices : List (Choice ClientEnv ClientCall)}
    (h : ∀ ch ∈ choices, ∀ p env, ch ≠ .crash p env) (w : ClientWorld) :
    machine.Admits NoCrash w choices := by
  induction choices generalizing w with
  | nil => trivial
  | cons ch rest ih =>
      exact ⟨h ch List.mem_cons_self, ih (fun ch' h' => h ch' (List.mem_cons_of_mem ch h')) _⟩

/-- In any interleaving every session that has come into being is in one place, and none is
closed twice.  A call that has one in hand has created it, or has taken it away and closes it
next.  After `close` has taken the session away none is installed, and no call installs
one that looked before an `abandon_in_flight`. -/
theorem run_sessions (supplied : Bool) (choices : List (Choice ClientEnv ClientCall))
    (hgoes : ∀ ch ∈ choices, ∀ p env, ch ≠ .crash p env) :
    ∃ w, w = machine.run (World.init (init supplied)) choices ∧
      (∀ session, session < w.state.made → ∃! owner, IsAt w owner session) ∧
      (∀ owner session, IsAt w owner session → session < w.state.made) ∧
      (∀ c session, AboutTo w c session → Brought w c session) ∧
      (∀ session, w.state.disposed.count session ≤ 1) ∧
      (∀ c r, .did c .shut r ∈ w.log → w.state.session = none) ∧
      ∀ later c generation session between d detached earlier,
        w.log = later ++ .did c (.settle generation session) (.ok .installed) ::
          (between ++ .did d .detach detached :: earlier) →
        ∀ seen, .did c .look (.ok seen) ∉ earlier := by
  obtain ⟨hs, hcustody, hfenced⟩ := (custody.and fenced).run
    (Sound.init _ _ (init supplied)) ⟨custody_init supplied, fenced_init _⟩
    (admits_noCrash hgoes _)
  have hwithin := Machine.Within.run (M := machine) (fun _ call => only_program call)
    (Machine.Within.init (init supplied)) choices
  generalize machine.run (World.init (init supplied)) choices = w at hs hcustody hfenced hwithin
  have hat : ∀ owner session, IsAt w owner session ↔ Owns w.state (inHand w.log) owner session := by
    intro owner session
    cases owner with
    | client => exact Iff.rfl
    | call c => exact aboutTo_iff hs hcustody c session
    | closed =>
        rw [IsAt, Owns]
        refine ⟨fun h => List.count_pos_iff.1 (by omega), fun h => ?_⟩
        exact List.count_eq_one_of_mem hcustody.kept.once h
  refine ⟨w, rfl, fun session hmade => ?_, fun owner session h => ?_,
    fun c session => brought_of_aboutTo hs hwithin, ?_, fun c r hshut => ?_, ?_⟩
  · obtain ⟨owner, howner⟩ := hcustody.kept.owned.owner hmade
    refine ⟨owner, (hat owner session).2 howner, fun p hp => ?_⟩
    exact hcustody.kept.owned.unique ((hat p session).1 hp) howner
  · exact hcustody.kept.owned.present ((hat owner session).1 h)
  · exact List.nodup_iff_count_le_one.1 hcustody.kept.once
  · exact hcustody.empty (hcustody.closed c r hshut)
  · intro later c generation session between d detached earlier hlog seen hlook
    refine hfenced.installs later c generation session _ hlog between d detached earlier rfl ?_
    exact List.mem_filterMap.2 ⟨_, hlook, rfl⟩

/-- Some steps of one call. -/
def goOn (proc steps : Nat) : List (Choice ClientEnv ClientCall) :=
  List.replicate steps (.step ⟨proc, 0⟩ {})

/-- A request installs a session after an `abandon_in_flight`.  The next `abandon_in_flight`
takes it away and does not come to closing it.  One request has created the second session, and
one the third, which it closes since it is abandoned before it can install it.  At last the
client is closed. -/
def abandonedRun : List (Choice ClientEnv ClientCall) :=
  .begin ⟨0, 0⟩ .abandonInFlight :: goOn 0 3 ++
    .begin ⟨1, 0⟩ (.recognise "frame") :: goOn 1 3 ++
    .begin ⟨2, 0⟩ .abandonInFlight :: goOn 2 1 ++
    .begin ⟨3, 0⟩ (.recognise "frame") :: goOn 3 2 ++
    .begin ⟨4, 0⟩ (.recognise "frame") :: goOn 4 2 ++
    .begin ⟨5, 0⟩ .abandonInFlight :: goOn 5 3 ++ goOn 4 2 ++
    .begin ⟨6, 0⟩ .close :: goOn 6 1

theorem run_sessions_abandoned :
    ∃ w, w = machine.run (World.init (init false)) abandonedRun ∧ w.state.made = 3 ∧
      w.state.disposed = [2] ∧ (∃! owner, IsAt w owner 0) ∧ (∃! owner, IsAt w owner 1) ∧
      (∃! owner, IsAt w owner 2) ∧ Brought w ⟨2, 0⟩ 0 ∧ Brought w ⟨3, 0⟩ 1 ∧
      (∀ session, w.state.disposed.count session ≤ 1) ∧ w.state.session = none ∧
      ∀ seen, .did ⟨1, 0⟩ .look (.ok seen) ∉ w.log.drop 23 := by
  have hgoes : ∀ ch ∈ abandonedRun, ∀ p env, ch ≠ .crash p env := by
    intro ch hch p env
    simp only [abandonedRun, goOn, List.replicate, List.cons_append, List.nil_append,
      List.mem_cons, List.not_mem_nil, or_false] at hch
    rintro rfl
    simp at hch
  obtain ⟨w, rfl, hplace, -, hbrought, honce, hshut, hinstalled⟩ :=
    run_sessions false abandonedRun hgoes
  refine ⟨_, rfl, rfl, rfl, hplace 0 (by decide), hplace 1 (by decide), hplace 2 (by decide),
    hbrought _ _ (.inr ⟨_, rfl⟩), hbrought _ _ (.inl ⟨_, _, rfl⟩), honce, ?_, ?_⟩
  · exact hshut ⟨6, 0⟩ (.ok (some none)) List.mem_cons_self
  · generalize hlog : (machine.run (World.init (init false)) abandonedRun).log = log at hinstalled ⊢
    refine hinstalled (log.take 16) ⟨1, 0⟩ 1 0 ((log.drop 17).take 5) ⟨0, 0⟩ (.ok none) _ ?_
    rw [← hlog]
    rfl

/-- A session that `abandon_in_flight` has taken and not yet closed is not installed, no
`recognise` is about to settle or to close it, and it has not been closed. -/
theorem detached_session_unplaced :
    ¬ ∀ (supplied : Bool) (choices : List (Choice ClientEnv ClientCall)),
      (∀ ch ∈ choices, ∀ p env, ch ≠ .crash p env) →
      ∀ w, w = machine.run (World.init (init supplied)) choices →
        ∀ session, session < w.state.made → IsAt w .client session ∨
          (∃ c path, .began c (.recognise path) ∈ w.log ∧ AboutTo w c session) ∨
            IsAt w .closed session := by
  intro h
  have hgoes : ∀ ch ∈ [Choice.begin ⟨0, 0⟩ ClientCall.abandonInFlight, .step ⟨0, 0⟩ {}],
      ∀ p (env : ClientEnv), ch ≠ .crash p env := by
    intro ch hch p env
    simp only [List.mem_cons, List.not_mem_nil, or_false] at hch
    rintro rfl
    simp at hch
  rcases h true _ hgoes _ rfl 0 Nat.one_pos with hclient | ⟨c, path, hbegan, -⟩ | hclosed
  · cases hclient
  · rcases List.mem_cons.1 hbegan with heq | hbegan
    · cases heq
    · rcases List.mem_cons.1 hbegan with heq | hbegan
      · cases heq
      · cases hbegan
  · cases hclosed

end PlateRecognizerClient

end GateController
