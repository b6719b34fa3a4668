import GateController.Effects.Protocol

/-!
# Systems of interleaved calls

A machine runs any number of calls over one shared state.  Each call is a
program, and a choice of the scheduler performs one operation of one call.  The
scheduler also begins calls and crashes processes: a crash ends every call of
the process, wherever it stands, and lets the machine reset what the process
held in memory.  The choice carries an environment value that decides what the
outside decides, such as the reading of a clock or the failure of a disk.

`World.step` is total.  A choice that is not possible (the operation waits for a
lock, the call is over) changes nothing, so every list of choices is a run and a
statement about all runs quantifies over lists.

The log keeps every operation with its outcome, newest first.  What a call has
done so far is read off the log (`ghost`), so an invariant is a predicate of the
shared state and the log.  `Invariant.run` is the one induction over runs: given
that each program obeys a protocol, it leaves one obligation per kind of event.
-/

namespace Effects

/-- A call, named by its process and a number. -/
structure CallId where
  proc : Nat
  serial : Nat
deriving DecidableEq, Repr

/-- One entry of the log. -/
inductive Event (E : Type) (Ans : E → Type) (ε Call ρ : Type) : Type where
  | began (c : CallId) (call : Call)
  | did (c : CallId) (e : E) (r : Except ε (Ans e))
  | ended (c : CallId) (r : Except ε ρ)
  | crashed (p : Nat)

/-- What the scheduler may choose. -/
inductive Choice (Env Call : Type) : Type where
  | begin (c : CallId) (call : Call)
  | step (c : CallId) (env : Env)
  | crash (p : Nat) (env : Env)

/-- A system of calls over the shared state `σ`. -/
structure Machine (E : Type) (Ans : E → Type) (ε Env σ Call ρ : Type) where
  /-- The program of a call. -/
  program : CallId → Call → Prog E Ans ε ρ
  /-- Whether a call may begin now, and the state in which it does. -/
  accept : CallId → Call → σ → Option σ
  /-- One operation of a call.  It may have to wait. -/
  exec : CallId → (e : E) → Env → σ → Option (Except ε (Ans e) × σ)
  /-- What a crash of a process leaves behind. -/
  crash : Nat → Env → σ → σ

variable {E : Type} {Ans : E → Type} {ε Env σ Call ρ S : Type}

/-! ## Reading the log -/

/-- The call has begun. -/
def Begun (c : CallId) : List (Event E Ans ε Call ρ) → Prop
  | [] => False
  | .began d _ :: log => d = c ∨ Begun c log
  | .did _ _ _ :: log => Begun c log
  | .ended _ _ :: log => Begun c log
  | .crashed _ :: log => Begun c log

instance Begun.decidable (c : CallId) :
    (log : List (Event E Ans ε Call ρ)) → Decidable (Begun c log)
  | [] => inferInstanceAs (Decidable False)
  | .began _ _ :: log =>
      have := Begun.decidable c log
      inferInstanceAs (Decidable (_ ∨ _))
  | .did _ _ _ :: log => Begun.decidable c log
  | .ended _ _ :: log => Begun.decidable c log
  | .crashed _ :: log => Begun.decidable c log

/-- The call has begun, has not ended, and its process has not crashed since. -/
def Live (c : CallId) : List (Event E Ans ε Call ρ) → Prop
  | [] => False
  | .began d _ :: log => d = c ∨ Live c log
  | .did _ _ _ :: log => Live c log
  | .ended d _ :: log => d ≠ c ∧ Live c log
  | .crashed p :: log => c.proc ≠ p ∧ Live c log

/-- The protocol state of a call, after all it has done.  Each call has its own
protocol. -/
def ghost (P : CallId → Protocol E Ans ε Call S) (c : CallId) :
    List (Event E Ans ε Call ρ) → Option S
  | [] => none
  | .began d call :: log => if d = c then some ((P c).start call) else ghost P c log
  | .did d e r :: log => if d = c then (ghost P c log).map ((P c).next · e r) else ghost P c log
  | .ended _ _ :: log => ghost P c log
  | .crashed _ :: log => ghost P c log

section Log

variable {c d : CallId} {log : List (Event E Ans ε Call ρ)} {P : CallId → Protocol E Ans ε Call S}

theorem begun_of_live : ∀ (log : List (Event E Ans ε Call ρ)), Live c log → Begun c log
  | .began _ _ :: log, h => Or.imp_right (begun_of_live log) h
  | .did _ _ _ :: log, h => begun_of_live log h
  | .ended _ _ :: log, h => begun_of_live log h.2
  | .crashed _ :: log, h => begun_of_live log h.2

theorem Live.begun (h : Live c log) : Begun c log := begun_of_live log h

theorem Begun.exists_began {log : List (Event E Ans ε Call ρ)} (h : Begun c log) :
    ∃ call, .began c call ∈ log := by
  induction log with
  | nil => exact h.elim
  | cons ev log ih =>
      cases ev with
      | began d call =>
          rcases h with rfl | h
          · exact ⟨call, List.mem_cons_self⟩
          · obtain ⟨call', hmem⟩ := ih h
            exact ⟨call', List.mem_cons_of_mem _ hmem⟩
      | _ =>
          obtain ⟨call, hmem⟩ := ih h
          exact ⟨call, List.mem_cons_of_mem _ hmem⟩

@[simp] theorem ghost_began_self {call : Call} :
    ghost P c (.began c call :: log) = some ((P c).start call) := if_pos rfl

theorem ghost_began_ne {call : Call} (h : d ≠ c) :
    ghost P c (.began d call :: log) = ghost P c log := if_neg h

theorem ghost_did {e : E} {r : Except ε (Ans e)} :
    ghost P c (.did c e r :: log) = (ghost P c log).map ((P c).next · e r) := if_pos rfl

theorem ghost_did_self {e : E} {r : Except ε (Ans e)} {s : S} (h : ghost P c log = some s) :
    ghost P c (.did c e r :: log) = some ((P c).next s e r) := by
  rw [ghost_did, h]
  rfl

theorem ghost_did_ne {e : E} {r : Except ε (Ans e)} (h : d ≠ c) :
    ghost P c (.did d e r :: log) = ghost P c log := if_neg h

theorem ghost_isSome_of : ∀ (log : List (Event E Ans ε Call ρ)),
    (ghost P c log).isSome ↔ Begun c log
  | [] => iff_of_false (fun h => (by cases h)) id
  | .began d call :: log => by
      have ih := ghost_isSome_of log
      by_cases h : d = c
      · subst h
        rw [ghost_began_self]
        exact iff_of_true rfl (.inl rfl)
      · rw [ghost_began_ne h]
        exact ih.trans ⟨.inr, fun hbegun => hbegun.resolve_left h⟩
  | .did d e r :: log => by
      have ih := ghost_isSome_of log
      by_cases h : d = c
      · subst h
        rw [ghost_did, Option.isSome_map]
        exact ih
      · rw [ghost_did_ne h]
        exact ih
  | .ended _ _ :: log => ghost_isSome_of log
  | .crashed _ :: log => ghost_isSome_of log

theorem ghost_isSome : (ghost P c log).isSome ↔ Begun c log := ghost_isSome_of log

/-- A call that begins leaves the others where they were. -/
theorem ghost_of_began {call : Call} {s : S} (h : ghost P d (.began c call :: log) = some s) :
    d = c ∧ s = (P c).start call ∨ ghost P d log = some s := by
  by_cases hd : c = d
  · subst hd
    cases h.symm.trans ghost_began_self
    exact .inl ⟨rfl, rfl⟩
  · exact .inr ((ghost_began_ne hd).symm.trans h)

theorem ghost_began_of (hnew : ¬ Begun c log) {call : Call} {s : S}
    (h : ghost P d log = some s) : ghost P d (.began c call :: log) = some s := by
  have hd : c ≠ d := by
    rintro rfl
    exact hnew (ghost_isSome.1 (by rw [h]; rfl))
  rw [ghost_began_ne hd]
  exact h

@[simp] theorem ghost_ended {r : Except ε ρ} :
    ghost P c (.ended d r :: log) = ghost P c log := rfl

@[simp] theorem ghost_crashed {p : Nat} :
    ghost P c (.crashed p :: log) = ghost P c log := rfl

end Log

/-! ## What holds of every call -/

section Calls

variable {P : CallId → Protocol E Ans ε Call S} {Φ Ψ : CallId → S → Prop} {c : CallId}
  {log : List (Event E Ans ε Call ρ)}

/-- `Φ` holds of every call that is under way. -/
def Each (P : CallId → Protocol E Ans ε Call S) (Φ : CallId → S → Prop)
    (log : List (Event E Ans ε Call ρ)) : Prop :=
  ∀ d s, Live d log → ghost P d log = some s → Φ d s

/-- `Φ` holds of every call that has begun. -/
def Ever (P : CallId → Protocol E Ans ε Call S) (Φ : CallId → S → Prop)
    (log : List (Event E Ans ε Call ρ)) : Prop :=
  ∀ d s, ghost P d log = some s → Φ d s

theorem Each.began {call : Call} (h : Each P Φ log) (hself : Ψ c ((P c).start call))
    (hothers : ∀ d s, d ≠ c → Live d log → Φ d s → Ψ d s) : Each P Ψ (.began c call :: log) := by
  intro d s hlive hghost
  by_cases hd : d = c
  · subst hd
    cases hghost.symm.trans ghost_began_self
    exact hself
  · rw [ghost_began_ne (Ne.symm hd)] at hghost
    have hlive' := hlive.resolve_left (Ne.symm hd)
    exact hothers d s hd hlive' (h d s hlive' hghost)

theorem Each.did {e : E} {r : Except ε (Ans e)} {s : S} (h : Each P Φ log)
    (hghost : ghost P c log = some s) (hself : Ψ c ((P c).next s e r))
    (hothers : ∀ d s, d ≠ c → Live d log → Φ d s → Ψ d s) : Each P Ψ (.did c e r :: log) := by
  intro d s' hlive hghost'
  by_cases hd : d = c
  · subst hd
    cases hghost'.symm.trans (ghost_did_self hghost)
    exact hself
  · rw [ghost_did_ne (Ne.symm hd)] at hghost'
    exact hothers d s' hd hlive (h d s' hlive hghost')

theorem Each.ended {r : Except ε ρ} (h : Each P Φ log) : Each P Φ (.ended c r :: log) :=
  fun d s hlive hghost => h d s hlive.2 hghost

theorem Each.crashed {p : Nat} (h : Each P Φ log)
    (hothers : ∀ d s, d.proc ≠ p → Live d log → Φ d s → Ψ d s) : Each P Ψ (.crashed p :: log) :=
  fun d s hlive hghost => hothers d s hlive.1 hlive.2 (h d s hlive.2 hghost)

theorem Ever.began {call : Call} (h : Ever P Φ log) (hself : Ψ c ((P c).start call))
    (hothers : ∀ d s, d ≠ c → ghost P d log = some s → Φ d s → Ψ d s) :
    Ever P Ψ (.began c call :: log) := by
  intro d s hghost
  by_cases hd : d = c
  · subst hd
    cases hghost.symm.trans ghost_began_self
    exact hself
  · rw [ghost_began_ne (Ne.symm hd)] at hghost
    exact hothers d s hd hghost (h d s hghost)

theorem Ever.did {e : E} {r : Except ε (Ans e)} {s : S} (h : Ever P Φ log)
    (hghost : ghost P c log = some s) (hself : Ψ c ((P c).next s e r))
    (hothers : ∀ d s, d ≠ c → ghost P d log = some s → Φ d s → Ψ d s) :
    Ever P Ψ (.did c e r :: log) := by
  intro d s' hghost'
  by_cases hd : d = c
  · subst hd
    cases hghost'.symm.trans (ghost_did_self hghost)
    exact hself
  · rw [ghost_did_ne (Ne.symm hd)] at hghost'
    exact hothers d s' hd hghost' (h d s' hghost')

end Calls

/-! ## What held all along -/

/-- `p` holds of every entry of the log and what was there before it. -/
def Always (p : Event E Ans ε Call ρ → List (Event E Ans ε Call ρ) → Prop) :
    List (Event E Ans ε Call ρ) → Prop
  | [] => True
  | e :: log => p e log ∧ Always p log

theorem Always.at {p : Event E Ans ε Call ρ → List (Event E Ans ε Call ρ) → Prop}
    {e : Event E Ans ε Call ρ} {log : List (Event E Ans ε Call ρ)} :
    ∀ {earlier : List (Event E Ans ε Call ρ)}, Always p log → e :: earlier <:+ log → p e earlier := by
  induction log with
  | nil => intro earlier _ h; simp at h
  | cons e' log ih =>
      intro earlier h hsuffix
      rcases List.suffix_cons_iff.1 hsuffix with heq | hsuffix
      · cases heq
        exact h.1
      · exact ih h.2 hsuffix

/-! ## Logs that keep to the protocols -/

/-- Protocol states in the order a call can pass through them. -/
inductive Protocol.Steps (P : Protocol E Ans ε Call S) : S → S → Prop where
  | refl (s : S) : P.Steps s s
  | step {s s' : S} {e : E} {r : Except ε (Ans e)} (h : P.Steps s s') (hallow : P.allow s' e)
      (hexpect : P.expect s' e r) : P.Steps s (P.next s' e r)

/-- A property that every allowed operation keeps. -/
theorem Protocol.Steps.keeps {P : Protocol E Ans ε Call S} {Φ : S → Prop} {s s' : S}
    (h : P.Steps s s') (hnext : ∀ s e r, P.allow s e → P.expect s e r → Φ s → Φ (P.next s e r))
    (hs : Φ s) : Φ s' := by
  induction h with
  | refl => exact hs
  | step _ hallow hexpect ih => exact hnext _ _ _ hallow hexpect ih

/-- What an entry of the log needs of the entries before it. -/
def LawfulEntry (P : CallId → Protocol E Ans ε Call S) (Q : CallId → S → Except ε ρ → Prop) :
    Event E Ans ε Call ρ → List (Event E Ans ε Call ρ) → Prop
  | .began c _, earlier => ¬ Begun c earlier
  | .did c e r, earlier => Live c earlier ∧
      ∃ s, ghost P c earlier = some s ∧ (P c).allow s e ∧ (P c).expect s e r
  | .ended c r, earlier => Live c earlier ∧ ∃ s, ghost P c earlier = some s ∧ Q c s r
  | .crashed _, _ => True

/-- Every entry of the log was allowed when it was made. -/
def Lawful (P : CallId → Protocol E Ans ε Call S) (Q : CallId → S → Except ε ρ → Prop)
    (log : List (Event E Ans ε Call ρ)) : Prop :=
  Always (LawfulEntry P Q) log

section Lawful

variable {P : CallId → Protocol E Ans ε Call S} {Q : CallId → S → Except ε ρ → Prop} {c : CallId}
  {log earlier : List (Event E Ans ε Call ρ)} {s s' : S}

theorem Always.suffix {p : Event E Ans ε Call ρ → List (Event E Ans ε Call ρ) → Prop}
    (h : Always p log) (hsuffix : earlier <:+ log) : Always p earlier := by
  obtain ⟨later, rfl⟩ := hsuffix
  induction later with
  | nil => exact h
  | cons e later ih => exact ih h.2

theorem Lawful.suffix (h : Lawful P Q log) (hsuffix : earlier <:+ log) : Lawful P Q earlier :=
  Always.suffix h hsuffix

/-- The operation was allowed where it stands in the log. -/
theorem Lawful.did {e : E} {r : Except ε (Ans e)} (h : Lawful P Q log)
    (hmem : .did c e r :: earlier <:+ log) : Live c earlier ∧
      ∃ s, ghost P c earlier = some s ∧ (P c).allow s e ∧ (P c).expect s e r :=
  Always.at h hmem

theorem Lawful.ended {r : Except ε ρ} (h : Lawful P Q log) (hmem : .ended c r :: earlier <:+ log) :
    Live c earlier ∧ ∃ s, ghost P c earlier = some s ∧ Q c s r :=
  Always.at h hmem

/-- What holds when a call begins and is kept by every operation holds of every call. -/
theorem Lawful.ever {Φ : CallId → S → Prop} (h : Lawful P Q log)
    (hstart : ∀ c call, Φ c ((P c).start call))
    (hnext : ∀ c s e r, (P c).allow s e → (P c).expect s e r → Φ c s → Φ c ((P c).next s e r)) :
    Ever P Φ log := by
  induction log with
  | nil => exact fun d s hghost => by cases hghost
  | cons ev log ih =>
      have hlog := ih h.2
      cases ev with
      | began c call => exact hlog.began (hstart c call) fun _ _ _ _ hd => hd
      | did c e r =>
          obtain ⟨-, s, hghost, hallow, hexpect⟩ := h.1
          exact hlog.did hghost (hnext c s e r hallow hexpect (hlog c s hghost)) fun _ _ _ _ hd => hd
      | ended c r => exact hlog
      | crashed p => exact hlog

/-- A call stands where the steps since then have brought it. -/
theorem Lawful.steps (h : Lawful P Q log) (hsuffix : earlier <:+ log)
    (hghost : ghost P c earlier = some s) :
    ∃ s', ghost P c log = some s' ∧ (P c).Steps s s' := by
  obtain ⟨later, rfl⟩ := hsuffix
  induction later with
  | nil => exact ⟨s, hghost, .refl s⟩
  | cons ev later ih =>
      obtain ⟨s', hs', hsteps⟩ := ih h.2
      have hbegun : Begun c (later ++ earlier) := ghost_isSome.1 (by rw [hs']; rfl)
      cases ev with
      | began d call =>
          have hd : d ≠ c := by
            rintro rfl
            exact h.1 hbegun
          exact ⟨s', (ghost_began_ne hd).trans hs', hsteps⟩
      | did d e r =>
          by_cases hd : d = c
          · subst hd
            obtain ⟨-, t, ht, hallow, hexpect⟩ := h.1
            cases hs'.symm.trans ht
            exact ⟨_, ghost_did_self hs', hsteps.step hallow hexpect⟩
          · exact ⟨s', (ghost_did_ne hd).trans hs', hsteps⟩
      | ended d r => exact ⟨s', hs', hsteps⟩
      | crashed p => exact ⟨s', hs', hsteps⟩

/-- A call that has ended does nothing more. -/
theorem Lawful.settled {r : Except ε ρ} (h : Lawful P Q log)
    (hmem : .ended c r :: earlier <:+ log) : ghost P c log = ghost P c earlier ∧ ¬ Live c log := by
  have hbegun : Begun c earlier := (h.ended hmem).1.begun
  obtain ⟨later, rfl⟩ := hmem
  induction later with
  | nil => exact ⟨rfl, fun hlive => hlive.1 rfl⟩
  | cons ev later ih =>
      obtain ⟨hghost, hlive⟩ := ih h.2
      have hbegun' : Begun c (later ++ .ended c r :: earlier) := by
        rw [← ghost_isSome (P := P), hghost, ghost_isSome]
        exact hbegun
      cases ev with
      | began d call =>
          have hd : d ≠ c := by
            rintro rfl
            exact h.1 hbegun'
          exact ⟨(ghost_began_ne hd).trans hghost, fun hl => hlive (hl.resolve_left hd)⟩
      | did d e r' =>
          have hd : d ≠ c := by
            rintro rfl
            exact hlive h.1.1
          exact ⟨(ghost_did_ne hd).trans hghost, hlive⟩
      | ended d r' => exact ⟨hghost, fun hl => hlive hl.2⟩
      | crashed p => exact ⟨hghost, fun hl => hlive hl.2⟩

/-- A fact that a call does not begin with came about by one of its operations. -/
theorem Lawful.origin {Φ : S → Prop} (h : Lawful P Q log) (hghost : ghost P c log = some s)
    (hs : Φ s) (hstart : ∀ call, ¬ Φ ((P c).start call)) :
    ∃ e r earlier s', .did c e r :: earlier <:+ log ∧ ghost P c earlier = some s' ∧ ¬ Φ s' ∧
      Φ ((P c).next s' e r) := by
  induction log generalizing s with
  | nil => cases hghost
  | cons ev log ih =>
      have hback : ghost P c log = some s → ∃ e r earlier s', .did c e r :: earlier <:+ ev :: log ∧
          ghost P c earlier = some s' ∧ ¬ Φ s' ∧ Φ ((P c).next s' e r) := fun hg => by
        obtain ⟨e, r, earlier, s', hmem, hrest⟩ := ih h.2 hg hs
        exact ⟨e, r, earlier, s', hmem.trans (List.suffix_cons _ _), hrest⟩
      cases ev with
      | began d call =>
          by_cases hd : d = c
          · subst hd
            rw [ghost_began_self] at hghost
            cases hghost
            exact absurd hs (hstart call)
          · exact hback ((ghost_began_ne hd).symm.trans hghost)
      | did d e r =>
          by_cases hd : d = c
          · subst hd
            obtain ⟨-, t, ht, -⟩ := h.1
            rw [ghost_did_self ht] at hghost
            cases hghost
            by_cases hold : Φ t
            · obtain ⟨e', r', earlier, s', hmem, hrest⟩ := ih h.2 ht hold
              exact ⟨e', r', earlier, s', hmem.trans (List.suffix_cons _ _), hrest⟩
            · exact ⟨e, r, log, t, List.suffix_rfl, ht, hold, hs⟩
          · exact hback ((ghost_did_ne hd).symm.trans hghost)
      | ended d r => exact hback hghost
      | crashed p => exact hback hghost

end Lawful

/-! ## Runs -/

/-- The shared state, the calls under way and what has happened. -/
structure World (E : Type) (Ans : E → Type) (ε σ Call ρ : Type) where
  state : σ
  running : CallId → Option (Prog E Ans ε ρ)
  log : List (Event E Ans ε Call ρ)

/-- Before any call. -/
def World.init (s : σ) : World E Ans ε σ Call ρ := ⟨s, fun _ => none, []⟩

/-- Put a program in the place of a call. -/
def setRunning (running : CallId → Option (Prog E Ans ε ρ)) (c : CallId)
    (p : Option (Prog E Ans ε ρ)) : CallId → Option (Prog E Ans ε ρ) :=
  fun d => if d = c then p else running d

@[simp] theorem setRunning_self (running : CallId → Option (Prog E Ans ε ρ)) (c : CallId)
    (p : Option (Prog E Ans ε ρ)) : setRunning running c p c = p := by simp [setRunning]

theorem setRunning_ne (running : CallId → Option (Prog E Ans ε ρ)) {c d : CallId}
    (p : Option (Prog E Ans ε ρ)) (h : d ≠ c) : setRunning running c p d = running d := by
  simp [setRunning, h]

namespace Machine

variable (M : Machine E Ans ε Env σ Call ρ)

/-- Let one call take its next step. -/
def advance (w : World E Ans ε σ Call ρ) (c : CallId) (env : Env) :
    Prog E Ans ε ρ → World E Ans ε σ Call ρ
  | .ret a => ⟨w.state, setRunning w.running c none, .ended c (.ok a) :: w.log⟩
  | .raise x => ⟨w.state, setRunning w.running c none, .ended c (.error x) :: w.log⟩
  | .call e k =>
      match M.exec c e env w.state with
      | none => w
      | some (r, s) => ⟨s, setRunning w.running c (some (k r)), .did c e r :: w.log⟩

/-- One choice of the scheduler.  An impossible choice changes nothing. -/
def step (w : World E Ans ε σ Call ρ) : Choice Env Call → World E Ans ε σ Call ρ
  | .begin c call =>
      if Begun c w.log then w else
        match M.accept c call w.state with
        | none => w
        | some s => ⟨s, setRunning w.running c (some (M.program c call)), .began c call :: w.log⟩
  | .step c env =>
      match w.running c with
      | none => w
      | some p => M.advance w c env p
  | .crash p env =>
      ⟨M.crash p env w.state, fun c => if c.proc = p then none else w.running c,
        .crashed p :: w.log⟩

/-- A run: the choices in order. -/
def run (w : World E Ans ε σ Call ρ) : List (Choice Env Call) → World E Ans ε σ Call ρ
  | [] => w
  | ch :: rest => run (M.step w ch) rest

/-- Every choice of the run meets a condition on the world it is made in. -/
def Admits (ok : World E Ans ε σ Call ρ → Choice Env Call → Prop)
    (w : World E Ans ε σ Call ρ) : List (Choice Env Call) → Prop
  | [] => True
  | ch :: rest => ok w ch ∧ Admits ok (M.step w ch) rest

variable {M}

theorem run_append (w : World E Ans ε σ Call ρ) (l₁ l₂ : List (Choice Env Call)) :
    M.run w (l₁ ++ l₂) = M.run (M.run w l₁) l₂ := by
  induction l₁ generalizing w with
  | nil => rfl
  | cons ch rest ih => exact ih (M.step w ch)

/-- A condition that every choice meets, whatever the world. -/
theorem admits_of_forall {ok : World E Ans ε σ Call ρ → Choice Env Call → Prop}
    {l : List (Choice Env Call)} (h : ∀ ch ∈ l, ∀ w, ok w ch) (w : World E Ans ε σ Call ρ) :
    M.Admits ok w l := by
  induction l generalizing w with
  | nil => trivial
  | cons ch rest ih =>
      exact ⟨h ch List.mem_cons_self w, ih (fun ch' hmem => h ch' (List.mem_cons_of_mem ch hmem)) _⟩

theorem admits_true (w : World E Ans ε σ Call ρ) (l : List (Choice Env Call)) :
    M.Admits (fun _ _ => True) w l :=
  admits_of_forall (fun _ _ _ => trivial) w

instance Admits.decidable {ok : World E Ans ε σ Call ρ → Choice Env Call → Prop}
    [hok : ∀ w ch, Decidable (ok w ch)] : (l : List (Choice Env Call)) →
    (w : World E Ans ε σ Call ρ) → Decidable (M.Admits ok w l)
  | [], _ => inferInstanceAs (Decidable True)
  | ch :: rest, w =>
      have := hok w ch
      have : Decidable (M.Admits ok (M.step w ch) rest) := Admits.decidable rest _
      inferInstanceAs (Decidable (_ ∧ _))

theorem admits_append {ok : World E Ans ε σ Call ρ → Choice Env Call → Prop}
    {w : World E Ans ε σ Call ρ} {l₁ l₂ : List (Choice Env Call)} :
    M.Admits ok w (l₁ ++ l₂) ↔ M.Admits ok w l₁ ∧ M.Admits ok (M.run w l₁) l₂ := by
  induction l₁ generalizing w with
  | nil => simp [Admits, run]
  | cons ch rest ih => simp [Admits, run, ih, and_assoc]

/-- The log only grows. -/
theorem log_suffix_step (w : World E Ans ε σ Call ρ) (ch : Choice Env Call) :
    w.log <:+ (M.step w ch).log := by
  cases ch with
  | begin c call =>
      simp only [step]
      split
      · exact List.suffix_rfl
      · split
        · exact List.suffix_rfl
        · exact List.suffix_cons _ _
  | step c env =>
      simp only [step]
      split
      · exact List.suffix_rfl
      · next p _ =>
        cases p with
        | ret a => exact List.suffix_cons _ _
        | raise x => exact List.suffix_cons _ _
        | call e k =>
            simp only [advance]
            split
            · exact List.suffix_rfl
            · exact List.suffix_cons _ _
  | crash p env => exact List.suffix_cons _ _

/-- What a choice can do to the shared state. -/
inductive Move (M : Machine E Ans ε Env σ Call ρ) (w : World E Ans ε σ Call ρ) :
    Choice Env Call → σ → Prop where
  | stay (ch : Choice Env Call) : Move M w ch w.state
  | begin (c : CallId) (call : Call) {s : σ} (h : M.accept c call w.state = some s) :
      Move M w (.begin c call) s
  | did (c : CallId) (env : Env) {e : E} {k : Except ε (Ans e) → Prog E Ans ε ρ}
      {r : Except ε (Ans e)} {s : σ} (hrun : w.running c = some (.call e k))
      (hexec : M.exec c e env w.state = some (r, s)) : Move M w (.step c env) s
  | crash (p : Nat) (env : Env) : Move M w (.crash p env) (M.crash p env w.state)

theorem step_move (w : World E Ans ε σ Call ρ) (ch : Choice Env Call) :
    Move M w ch (M.step w ch).state := by
  cases ch with
  | begin c call =>
      simp only [step]
      split
      · exact .stay _
      · split
        · exact .stay _
        · next s hs => exact .begin c call hs
  | step c env =>
      simp only [step]
      split
      · exact .stay _
      · next p hrun =>
        cases p with
        | ret a => exact .stay _
        | raise x => exact .stay _
        | call e k =>
            simp only [advance]
            split
            · exact .stay _
            · next r s hexec => exact .did c env hrun hexec
  | crash p env => exact .crash p env

/-! ## What a call may have done -/

/-- Each call is of a kind, and has done and will do only what its kind of call may do. -/
structure Within (F : Call → E → Prop) (w : World E Ans ε σ Call ρ) : Prop where
  running : ∀ c p, w.running c = some p → ∃ call, .began c call ∈ w.log ∧ p.Only (F call)
  log : ∀ c e r, .did c e r ∈ w.log → ∃ call, .began c call ∈ w.log ∧ F call e

variable {F : Call → E → Prop} {w : World E Ans ε σ Call ρ}

theorem Within.init (s : σ) : Within F (World.init s : World E Ans ε σ Call ρ) where
  running _ _ h := by cases h
  log _ _ _ h := by cases h

/-- An event that is no operation, after which no call has another program. -/
theorem Within.other (h : Within F w) {s : σ} {running : CallId → Option (Prog E Ans ε ρ)}
    {ev : Event E Ans ε Call ρ} (hrunning : ∀ c p, running c = some p → w.running c = some p)
    (hev : ∀ c e r, ev ≠ .did c e r) : Within F ⟨s, running, ev :: w.log⟩ where
  running c p hp := by
    obtain ⟨call, hbegan, honly⟩ := h.running c p (hrunning c p hp)
    exact ⟨call, List.mem_cons_of_mem _ hbegan, honly⟩
  log c e r hmem := by
    obtain ⟨call, hbegan, hF⟩ := h.log c e r ((List.mem_cons.1 hmem).resolve_left
      fun heq => hev c e r heq.symm)
    exact ⟨call, List.mem_cons_of_mem _ hbegan, hF⟩

/-- A call that ends has no program any more. -/
theorem of_setRunning_none {running : CallId → Option (Prog E Ans ε ρ)} {c d : CallId}
    {p : Prog E Ans ε ρ} (h : setRunning running c none d = some p) : running d = some p := by
  by_cases hd : d = c
  · subst hd
    rw [setRunning_self] at h
    cases h
  · rwa [setRunning_ne _ _ hd] at h

/-- One choice. -/
theorem Within.step (hF : ∀ c call, (M.program c call).Only (F call)) (h : Within F w)
    (ch : Choice Env Call) : Within F (M.step w ch) := by
  cases ch with
  | begin c call =>
      simp only [Machine.step]
      split
      · exact h
      · split
        · exact h
        next s' haccept =>
          refine ⟨fun d p hp => ?_, fun d e r hmem => ?_⟩
          · by_cases hd : d = c
            · subst hd
              simp only [setRunning_self, Option.some.injEq] at hp
              subst hp
              exact ⟨call, List.mem_cons_self, hF d call⟩
            · simp only [setRunning_ne _ _ hd] at hp
              obtain ⟨call', hbegan, honly⟩ := h.running d p hp
              exact ⟨call', List.mem_cons_of_mem _ hbegan, honly⟩
          · obtain ⟨call', hbegan, hin⟩ := h.log d e r ((List.mem_cons.1 hmem).resolve_left
              fun heq => (by cases heq))
            exact ⟨call', List.mem_cons_of_mem _ hbegan, hin⟩
  | step c env =>
      simp only [Machine.step]
      split
      · exact h
      next p hrun =>
        cases p with
        | ret a =>
            exact h.other (fun d p hp => of_setRunning_none hp) fun _ _ _ heq => (by cases heq)
        | raise x =>
            exact h.other (fun d p hp => of_setRunning_none hp) fun _ _ _ heq => (by cases heq)
        | call e k =>
            simp only [Machine.advance]
            split
            · exact h
            next r s' hexec =>
              obtain ⟨call, hbegan, hin, honly⟩ := h.running c _ hrun
              refine ⟨fun d p hp => ?_, fun d e' r' hmem => ?_⟩
              · by_cases hd : d = c
                · subst hd
                  simp only [setRunning_self, Option.some.injEq] at hp
                  subst hp
                  exact ⟨call, List.mem_cons_of_mem _ hbegan, honly r⟩
                · simp only [setRunning_ne _ _ hd] at hp
                  obtain ⟨call', hbegan', honly'⟩ := h.running d p hp
                  exact ⟨call', List.mem_cons_of_mem _ hbegan', honly'⟩
              · rcases List.mem_cons.1 hmem with heq | hmem
                · cases heq
                  exact ⟨call, List.mem_cons_of_mem _ hbegan, hin⟩
                · obtain ⟨call', hbegan', hin'⟩ := h.log d e' r' hmem
                  exact ⟨call', List.mem_cons_of_mem _ hbegan', hin'⟩
  | crash p env =>
      refine h.other (fun d q hq => ?_) fun _ _ _ heq => (by cases heq)
      split at hq
      · cases hq
      · exact hq

/-- The induction over runs. -/
theorem Within.run (hF : ∀ c call, (M.program c call).Only (F call)) (h : Within F w)
    (l : List (Choice Env Call)) : Within F (M.run w l) := by
  induction l generalizing w with
  | nil => exact h
  | cons ch rest ih => exact ih (h.step hF ch)

end Machine

/-! ## Invariants -/

/-- The programs under way are those the log says, and each obeys the protocol
from where it stands. -/
structure Sound (P : CallId → Protocol E Ans ε Call S) (Q : CallId → S → Except ε ρ → Prop)
    (w : World E Ans ε σ Call ρ) : Prop where
  live : ∀ c, (w.running c).isSome ↔ Live c w.log
  obeys : ∀ c p, w.running c = some p → ∃ s, ghost P c w.log = some s ∧ Obeys (P c) (Q c) s p
  lawful : Lawful P Q w.log

theorem Sound.init (P : CallId → Protocol E Ans ε Call S) (Q : CallId → S → Except ε ρ → Prop) (s : σ) :
    Sound P Q (World.init s : World E Ans ε σ Call ρ) where
  live _ := iff_of_false (fun h => (by cases h)) id
  obeys _ _ h := by cases h
  lawful := trivial

/-- What has to be shown of a predicate of state and log, event by event.  The
condition `ok` is what is assumed of every choice of the run. -/
structure Invariant (M : Machine E Ans ε Env σ Call ρ) (P : CallId → Protocol E Ans ε Call S)
    (Q : CallId → S → Except ε ρ → Prop) (ok : World E Ans ε σ Call ρ → Choice Env Call → Prop)
    (I : σ → List (Event E Ans ε Call ρ) → Prop) : Prop where
  obeys : ∀ w c call s', I w.state w.log → ok w (.begin c call) →
    M.accept c call w.state = some s' → Obeys (P c) (Q c) ((P c).start call) (M.program c call)
  began : ∀ w c call s', Sound P Q w → I w.state w.log → ok w (.begin c call) →
    ¬ Begun c w.log → M.accept c call w.state = some s' → I s' (.began c call :: w.log)
  did : ∀ w c env e k s r s', Sound P Q w → I w.state w.log → ok w (.step c env) →
    w.running c = some (.call e k) → Live c w.log → ghost P c w.log = some s → (P c).allow s e →
    M.exec c e env w.state = some (r, s') → (P c).expect s e r ∧ I s' (.did c e r :: w.log)
  ended : ∀ w c s r, Sound P Q w → I w.state w.log → Live c w.log → ghost P c w.log = some s →
    Q c s r → I w.state (.ended c r :: w.log)
  crashed : ∀ w p env, Sound P Q w → I w.state w.log → ok w (.crash p env) →
    I (M.crash p env w.state) (.crashed p :: w.log)

namespace Invariant

variable {M : Machine E Ans ε Env σ Call ρ} {P : CallId → Protocol E Ans ε Call S}
  {Q : CallId → S → Except ε ρ → Prop} {ok : World E Ans ε σ Call ρ → Choice Env Call → Prop}
  {I : σ → List (Event E Ans ε Call ρ) → Prop}

/-- A call ends: the others stand where they stood. -/
private theorem sound_ended {w : World E Ans ε σ Call ρ} (hs : Sound P Q w) {c : CallId}
    {r : Except ε ρ} {s : S} (hlive : Live c w.log) (hghost : ghost P c w.log = some s)
    (hQ : Q c s r) :
    Sound P Q ⟨w.state, setRunning w.running c none, .ended c r :: w.log⟩ where
  live d := by
    by_cases hd : d = c
    · subst hd
      dsimp only
      rw [setRunning_self]
      exact iff_of_false Bool.false_ne_true fun h => h.1 rfl
    · dsimp only
      rw [setRunning_ne _ _ hd, hs.live d]
      exact ⟨fun h => ⟨Ne.symm hd, h⟩, fun h => h.2⟩
  obeys d p hp := by
    by_cases hd : d = c
    · subst hd
      simp at hp
    · simp only [setRunning_ne _ _ hd] at hp
      exact hs.obeys d p hp
  lawful := ⟨⟨hlive, s, hghost, hQ⟩, hs.lawful⟩

/-- One choice keeps the invariant. -/
theorem step (inv : Invariant M P Q ok I) {w : World E Ans ε σ Call ρ} {ch : Choice Env Call}
    (hs : Sound P Q w) (hI : I w.state w.log) (hok : ok w ch) :
    Sound P Q (M.step w ch) ∧ I (M.step w ch).state (M.step w ch).log := by
  cases ch with
  | begin c call =>
      simp only [Machine.step]
      split
      · exact ⟨hs, hI⟩
      · next hnew =>
        split
        · exact ⟨hs, hI⟩
        · next s' haccept =>
          refine ⟨⟨fun d => ?_, fun d p hp => ?_, ⟨hnew, hs.lawful⟩⟩, inv.began w c call s' hs hI hok hnew haccept⟩
          · by_cases hd : d = c
            · subst hd
              dsimp only
              rw [setRunning_self]
              exact iff_of_true rfl (.inl rfl)
            · dsimp only
              rw [setRunning_ne _ _ hd, hs.live d]
              exact ⟨.inr, fun h => h.resolve_left (Ne.symm hd)⟩
          · by_cases hd : d = c
            · subst hd
              simp only [setRunning_self, Option.some.injEq] at hp
              subst hp
              exact ⟨_, ghost_began_self, inv.obeys w d call s' hI hok haccept⟩
            · simp only [setRunning_ne _ _ hd] at hp
              rw [ghost_began_ne (Ne.symm hd)]
              exact hs.obeys d p hp
  | step c env =>
      simp only [Machine.step]
      split
      · exact ⟨hs, hI⟩
      · next p hrun =>
        have hlive : Live c w.log := (hs.live c).1 (by simp [hrun])
        obtain ⟨s, hghost, hobeys⟩ := hs.obeys c p hrun
        cases p with
        | ret a =>
            exact ⟨sound_ended hs hlive hghost hobeys, inv.ended w c s _ hs hI hlive hghost hobeys⟩
        | raise x =>
            exact ⟨sound_ended hs hlive hghost hobeys, inv.ended w c s _ hs hI hlive hghost hobeys⟩
        | call e k =>
            simp only [Machine.advance]
            split
            · exact ⟨hs, hI⟩
            · next r s' hexec =>
              obtain ⟨hexpect, hI'⟩ :=
                inv.did w c env e k s r s' hs hI hok hrun hlive hghost hobeys.1 hexec
              refine ⟨⟨fun d => ?_, fun d p hp => ?_,
                ⟨⟨hlive, s, hghost, hobeys.1, hexpect⟩, hs.lawful⟩⟩, hI'⟩
              · by_cases hd : d = c
                · subst hd
                  dsimp only
                  rw [setRunning_self]
                  exact iff_of_true rfl hlive
                · dsimp only
                  rw [setRunning_ne _ _ hd, hs.live d]
                  exact Iff.rfl
              · by_cases hd : d = c
                · subst hd
                  simp only [setRunning_self, Option.some.injEq] at hp
                  subst hp
                  exact ⟨_, ghost_did_self hghost, hobeys.2 r hexpect⟩
                · simp only [setRunning_ne _ _ hd] at hp
                  rw [ghost_did_ne (Ne.symm hd)]
                  exact hs.obeys d p hp
  | crash p env =>
      refine ⟨⟨fun d => ?_, fun d q hq => ?_, ⟨trivial, hs.lawful⟩⟩, inv.crashed w p env hs hI hok⟩
      · by_cases hd : d.proc = p
        · simp only [Machine.step, if_pos hd]
          exact iff_of_false Bool.false_ne_true fun h => h.1 hd
        · simp only [Machine.step, if_neg hd, hs.live d]
          exact ⟨fun h => ⟨hd, h⟩, fun h => h.2⟩
      · simp only [Machine.step] at hq
        split at hq
        · simp at hq
        · exact hs.obeys d q hq

/-- The induction over runs. -/
theorem run (inv : Invariant M P Q ok I) {w : World E Ans ε σ Call ρ}
    {l : List (Choice Env Call)} (hs : Sound P Q w) (hI : I w.state w.log)
    (hok : M.Admits ok w l) :
    Sound P Q (M.run w l) ∧ I (M.run w l).state (M.run w l).log := by
  induction l generalizing w with
  | nil => exact ⟨hs, hI⟩
  | cons ch rest ih =>
      obtain ⟨hs', hI'⟩ := inv.step hs hI hok.1
      exact ih hs' hI' hok.2

/-- A stronger condition on the choices. -/
theorem mono {ok' : World E Ans ε σ Call ρ → Choice Env Call → Prop} (inv : Invariant M P Q ok I)
    (h : ∀ w ch, ok' w ch → ok w ch) : Invariant M P Q ok' I where
  obeys w c call s' hI hok := inv.obeys w c call s' hI (h _ _ hok)
  began w c call s' hs hI hok := inv.began w c call s' hs hI (h _ _ hok)
  did w c env e k s r s' hs hI hok := inv.did w c env e k s r s' hs hI (h _ _ hok)
  ended := inv.ended
  crashed w p env hs hI hok := inv.crashed w p env hs hI (h _ _ hok)

end Invariant

/-- What has to be shown of a further predicate `J`, given the invariant `I`. -/
structure Keeps (M : Machine E Ans ε Env σ Call ρ) (P : CallId → Protocol E Ans ε Call S)
    (Q : CallId → S → Except ε ρ → Prop) (ok : World E Ans ε σ Call ρ → Choice Env Call → Prop)
    (I J : σ → List (Event E Ans ε Call ρ) → Prop) : Prop where
  began : ∀ w c call s', Sound P Q w → I w.state w.log → J w.state w.log → ok w (.begin c call) →
    ¬ Begun c w.log → M.accept c call w.state = some s' → J s' (.began c call :: w.log)
  did : ∀ w c env e k s r s', Sound P Q w → I w.state w.log → J w.state w.log →
    ok w (.step c env) → w.running c = some (.call e k) → Live c w.log →
    ghost P c w.log = some s → (P c).allow s e → M.exec c e env w.state = some (r, s') →
    J s' (.did c e r :: w.log)
  ended : ∀ w c s r, Sound P Q w → I w.state w.log → J w.state w.log → Live c w.log →
    ghost P c w.log = some s → Q c s r → J w.state (.ended c r :: w.log)
  crashed : ∀ w p env, Sound P Q w → I w.state w.log → J w.state w.log → ok w (.crash p env) →
    J (M.crash p env w.state) (.crashed p :: w.log)

/-- Both together are an invariant. -/
theorem Invariant.and {M : Machine E Ans ε Env σ Call ρ} {P : CallId → Protocol E Ans ε Call S}
    {Q : CallId → S → Except ε ρ → Prop} {ok : World E Ans ε σ Call ρ → Choice Env Call → Prop}
    {I J : σ → List (Event E Ans ε Call ρ) → Prop} (inv : Invariant M P Q ok I)
    (h : Keeps M P Q ok I J) : Invariant M P Q ok fun s log => I s log ∧ J s log where
  obeys w c call s' hI hok haccept := inv.obeys w c call s' hI.1 hok haccept
  began w c call s' hs hI hok hnew haccept :=
    ⟨inv.began w c call s' hs hI.1 hok hnew haccept, h.began w c call s' hs hI.1 hI.2 hok hnew haccept⟩
  did w c env e k s r s' hs hI hok hrun hlive hghost hallow hexec := by
    obtain ⟨hexpect, hI'⟩ := inv.did w c env e k s r s' hs hI.1 hok hrun hlive hghost hallow hexec
    exact ⟨hexpect, hI',
      h.did w c env e k s r s' hs hI.1 hI.2 hok hrun hlive hghost hallow hexec⟩
  ended w c s r hs hI hlive hghost hQ :=
    ⟨inv.ended w c s r hs hI.1 hlive hghost hQ, h.ended w c s r hs hI.1 hI.2 hlive hghost hQ⟩
  crashed w p env hs hI hok :=
    ⟨inv.crashed w p env hs hI.1 hok, h.crashed w p env hs hI.1 hI.2 hok⟩

end Effects
