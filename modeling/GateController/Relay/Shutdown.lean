import GateController.Runtime.History

/-!
# The shutdown latch

The flag is set inside the activation boundary, and the output is driven high
inside the same boundary after the flag was read there.  `Sealed` says what the
flag means in a run: whoever is cleared to drive the output high has seen it
unset and it still is, and after an `off()` that followed the flag the output is
low.
-/

namespace GateController

open Data Effects Proc LocalStore ActuationCoordinator

variable {cfg : Nat → Config} {c : CallId} {s : Watch} {st st' : State} {log : Log}

/-! ## Flag and pin, one operation at a time -/

section Steps

variable {env : Env} {e : Eff} {r : Except Exc e.Ans}

theorem exec_shutdown_cases (h : e.exec c env st = some (r, st')) (q : Nat) :
    (st'.procs q).shutdown = (st.procs q).shutdown ∨
      e = .relay .setShutdown ∧ q = c.proc ∧ (st'.procs q).shutdown = true := by
  by_cases he : e = .relay .setShutdown
  · subst he
    rw [exec_procs h]
    by_cases hq : q = c.proc
    · exact .inr ⟨rfl, hq, by simp [hq, Eff.onProc]⟩
    · exact .inl (by simp [hq])
  · exact .inl (exec_shutdown h he q)

/-- A flag that is set stays set. -/
theorem exec_shutdown_mono (h : e.exec c env st = some (r, st')) {q : Nat}
    (hq : (st.procs q).shutdown = true) : (st'.procs q).shutdown = true := by
  rcases exec_shutdown_cases h q with hs | ⟨-, -, hs⟩
  · exact hs.trans hq
  · exact hs

/-- A low output stays low until it is driven high. -/
theorem exec_pin_low (h : e.exec c env st = some (r, st')) {q : Nat}
    (hhigh : e = .relay .high → q ≠ c.proc) (hq : (st.procs q).pin = false) :
    (st'.procs q).pin = false := by
  by_cases hp : q = c.proc
  · by_cases hl : e = .relay .low
    · subst hl
      rw [exec_procs h, if_pos hp]
      simp only [Eff.onProc]
      split
      · simp [hq]
      · rfl
    · rw [exec_pin h (fun he => hhigh he hp) hl]
      exact hq
  · rw [exec_procs_ne h hp]
    exact hq

/-- An `off()` that returns has driven the output low. -/
theorem exec_low_ok {u : Unit} (h : (Eff.relay .low).exec c env st = some (.ok u, st')) :
    (st'.procs c.proc).pin = false := by
  simp only [Eff.exec, RelayOp.exec] at h
  split at h
  · cases h
  · cases h
    simp

/-- A call is cleared by reading the flag unset, inside the boundary. -/
theorem Watch.next_cleared (hcl : (s.next e r).relay.cleared = true) :
    s.relay.cleared = true ∧ e ≠ .relay .setShutdown ∨
      (⟨e, r⟩ : Outcome) = ⟨.relay .shutdownIsSet, .ok false⟩ := by
  cases e with
  | relay op =>
      cases op with
      | shutdownIsSet =>
          simp only [Watch.next, RelayWatch.next, Bool.and_eq_true, beq_iff_eq] at hcl
          cases r with
          | error x => cases hcl.2
          | ok b =>
              cases hcl.2
              exact .inr rfl
      | high => cases hcl
      | low => cases r <;> exact .inl ⟨hcl, by simp⟩
      | setShutdown => cases hcl
      | _ => exact .inl ⟨hcl, by simp⟩
  | release lock =>
      cases lock with
      | boundary => cases hcl
      | trigger => cases hcl
      | _ => exact .inl ⟨hcl, by simp⟩
  | env op =>
      simp only [Watch.next, RelayWatch.answer] at hcl
      split at hcl
      · split at hcl <;> exact .inl ⟨hcl, by simp⟩
      · exact .inl ⟨hcl, by simp⟩
  | mark m =>
      cases m with
      | evaluating => cases hcl
      | triggerCalled key inhibit => cases hcl
      | _ => exact .inl ⟨hcl, by simp⟩
  | _ => exact .inl ⟨hcl, by simp⟩

/-- What a call has set and turned off, by its operations. -/
theorem Watch.next_offAfterShutdown (hoff : (s.next e r).relay.offAfterShutdown = true) :
    s.relay.offAfterShutdown = true ∨
      s.relay.shutdownSet = true ∧ (⟨e, r⟩ : Outcome) = ⟨.relay .low, .ok ()⟩ := by
  cases e with
  | relay op =>
      cases op with
      | low =>
          cases r with
          | error x => exact .inl hoff
          | ok u =>
              simp only [Watch.next, RelayWatch.next, Bool.or_eq_true] at hoff
              exact hoff.imp_right fun h => ⟨h, rfl⟩
      | _ => exact .inl hoff
  | release lock => cases lock <;> exact .inl hoff
  | env op =>
      simp only [Watch.next, RelayWatch.answer] at hoff
      split at hoff
      · split at hoff <;> exact .inl hoff
      · exact .inl hoff
  | mark m => cases m <;> exact .inl hoff
  | _ => exact .inl hoff

theorem Watch.next_shutdownSet (hset : (s.next e r).relay.shutdownSet = true) :
    s.relay.shutdownSet = true ∨ e = .relay .setShutdown := by
  cases e with
  | relay op =>
      cases op with
      | setShutdown => exact .inr rfl
      | low => cases r <;> exact .inl hset
      | _ => exact .inl hset
  | release lock => cases lock <;> exact .inl hset
  | env op =>
      simp only [Watch.next, RelayWatch.answer] at hset
      split at hset
      · split at hset <;> exact .inl hset
      · exact .inl hset
  | mark m => cases m <;> exact .inl hset
  | _ => exact .inl hset

end Steps

/-! ## The invariant -/

/-- What the shutdown flag of a process means for its calls and its pin. -/
structure Sealed (cfg : Nat → Config) (st : State) (log : Log) : Prop where
  flag : ∀ c r, .did c (.relay .setShutdown) r ∈ log → (st.procs c.proc).shutdown = true
  cleared : Each (watch cfg) (fun c s => s.relay.cleared = true →
    (st.procs c.proc).shutdown = false) log
  off : Ever (watch cfg) (fun c s =>
    (s.relay.shutdownSet = true → (st.procs c.proc).shutdown = true) ∧
    (s.relay.offAfterShutdown = true →
      (st.procs c.proc).shutdown = true ∧ (st.procs c.proc).pin = false)) log
  high : Always (fun ev earlier => ∀ d r, ev = .did d (.relay .high) r →
    ∀ c r', .did c (.relay .setShutdown) r' ∈ earlier → c.proc ≠ d.proc) log

theorem Sealed.init (db : Db) (boot : Option String) : Sealed cfg { db, boot } [] where
  flag c r h := by simp at h
  cleared d s h := h.elim
  off d s h := by cases h
  high := trivial

theorem Sealed.began {call : Call} (h : Sealed cfg st log) (haccept : call.accept c st = some st') :
    Sealed cfg st' (.began c call :: log) := by
  have hsame : ∀ q, (st'.procs q).shutdown = (st.procs q).shutdown ∧
      (st'.procs q).pin = (st.procs q).pin := fun q => by
    obtain ⟨reports, hq⟩ := (accept_admitted haccept).procs q
    rw [hq]
    exact ⟨rfl, rfl⟩
  refine ⟨fun d r hmem => ?_, h.cleared.began (fun hcl => by cases hcl) fun d s _ _ hd => ?_,
    h.off.began ⟨fun hs => (by cases hs), fun hs => by cases hs⟩ fun d s _ _ hd => ?_,
    fun d r hev => (by cases hev), h.high⟩
  · rw [(hsame _).1]
    exact h.flag d r (by simpa using hmem)
  · rw [(hsame _).1]
    exact hd
  · rw [(hsame _).1, (hsame _).2]
    exact hd

/-- The flag is set inside the boundary, so nobody else is cleared then. -/
theorem Sealed.cleared_step {env : Env} {e : Eff} {r : Except Exc e.Ans}
    (hbase : Base cfg st log) (h : Sealed cfg st log) (hlive : Live c log)
    (hghost : ghost (watch cfg) c log = some s) (hallow : s.allow (cfg c.proc) e)
    (hexec : e.exec c env st = some (r, st')) :
    Each (watch cfg) (fun c s => s.relay.cleared = true → (st'.procs c.proc).shutdown = false)
      (.did c e r :: log) := by
  have hkept : ∀ d t, Live d log → ghost (watch cfg) d log = some t → t.relay.cleared = true →
      (e = .relay .setShutdown → d ≠ c) → (st'.procs d.proc).shutdown = false := by
    intro d t hd hg hcl hne
    have hunset := h.cleared d t hd hg hcl
    rcases exec_shutdown_cases hexec d.proc with hs | ⟨rfl, hp, -⟩
    · exact hs.trans hunset
    · have hboth : ∀ b, Live b log → ∀ v, ghost (watch cfg) b log = some v →
          v.holds .boundary = true → (st.procs b.proc).locks .boundary = some b :=
        fun b hb v hv hheld => ((hbase.each b v hb hv).holds _).1 hheld
      have h₁ := hboth d hd t hg ((hbase.coherent d t hg).cleared hcl).1
      have h₂ := hboth c hlive s hghost hallow.1
      rw [hp, h₂] at h₁
      exact absurd (Option.some.inj h₁).symm (hne rfl)
  intro d t hd hg hcl
  by_cases hdc : d = c
  · subst hdc
    cases hg.symm.trans (ghost_did_self hghost)
    rcases Watch.next_cleared hcl with ⟨hold, hne⟩ | hr
    · exact hkept d s hlive hghost hold fun he => absurd he hne
    · cases hr
      simp only [Eff.exec, RelayOp.exec, Option.some.injEq, Prod.mk.injEq, Except.ok.injEq] at hexec
      rw [← hexec.2]
      exact hexec.1
  · rw [ghost_did_ne (Ne.symm hdc)] at hg
    exact hkept d t hd hg hcl fun _ => hdc

theorem Sealed.did {env : Env} {e : Eff} {r : Except Exc e.Ans}
    (hbase : Base cfg st log) (h : Sealed cfg st log) (hlive : Live c log)
    (hghost : ghost (watch cfg) c log = some s) (hallow : s.allow (cfg c.proc) e)
    (hexec : e.exec c env st = some (r, st')) : Sealed cfg st' (.did c e r :: log) := by
  -- Whoever drives the output high is cleared, so its process has no shutdown.
  have hunset : e = .relay .high → (st.procs c.proc).shutdown = false := by
    rintro rfl
    exact h.cleared c s hlive hghost hallow.2.2.2.2.1
  have hkept : ∀ d t, ghost (watch cfg) d log = some t →
      (t.relay.shutdownSet = true → (st'.procs d.proc).shutdown = true) ∧
      (t.relay.offAfterShutdown = true →
        (st'.procs d.proc).shutdown = true ∧ (st'.procs d.proc).pin = false) := by
    intro d t hg
    obtain ⟨hset, hoff⟩ := h.off d t hg
    refine ⟨fun hs => exec_shutdown_mono hexec (hset hs), fun hs => ?_⟩
    obtain ⟨hflag, hpin⟩ := hoff hs
    refine ⟨exec_shutdown_mono hexec hflag, exec_pin_low hexec (fun he hp => ?_) hpin⟩
    rw [hp, hunset he] at hflag
    cases hflag
  refine ⟨fun d r' hmem => ?_, cleared_step hbase h hlive hghost hallow hexec,
    h.off.did hghost ⟨fun hs => ?_, fun hs => ?_⟩ fun d t _ hg _ => hkept d t hg,
    fun d r' hev d' r'' hmem => ?_, h.high⟩
  · rcases List.mem_cons.1 hmem with heq | hmem
    · cases heq
      cases hexec
      simp
    · exact exec_shutdown_mono hexec (h.flag d r' hmem)
  · rcases Watch.next_shutdownSet hs with hold | rfl
    · exact (hkept c s hghost).1 hold
    · cases hexec
      simp
  · rcases Watch.next_offAfterShutdown hs with hold | ⟨hset, hr⟩
    · exact (hkept c s hghost).2 hold
    · cases hr
      exact ⟨(hkept c s hghost).1 hset, exec_low_ok hexec⟩
  · cases hev
    have hflag := h.flag d' r'' hmem
    intro hp
    rw [hp, hunset rfl] at hflag
    cases hflag

theorem sealed_keeps (cfg : Nat → Config) :
    Keeps (gate cfg) (watch cfg) (Concluded cfg) (fun _ _ => True) (Base cfg) (Sealed cfg) where
  began _ _ _ _ _ _ h _ _ haccept := h.began haccept
  did _ _ _ _ _ _ _ _ _ hbase h _ _ hlive hghost hallow hexec :=
    .did hbase h hlive hghost hallow hexec
  ended w c s r _ _ h _ _ _ :=
    ⟨fun d r' hmem => h.flag d r' (by simpa using hmem), h.cleared.ended, h.off,
      fun d r' hev => (by cases hev), h.high⟩
  crashed w p env _ _ h _ := by
    have hsame : ∀ q, (((gate cfg).crash p env w.state).procs q).shutdown =
        (w.state.procs q).shutdown ∧
        (((gate cfg).crash p env w.state).procs q).pin = (w.state.procs q).pin := fun q => by
      change ((w.state.crash p env).procs q).shutdown = _ ∧ ((w.state.crash p env).procs q).pin = _
      rw [crash_procs]
      split <;> exact ⟨rfl, rfl⟩
    refine ⟨fun d r' hmem => ?_, h.cleared.crashed fun d s _ _ hd => ?_, fun d s hg => ?_,
      fun d r' hev => (by cases hev), h.high⟩
    · rw [(hsame _).1]
      exact h.flag d r' (by simpa using hmem)
    · rw [(hsame _).1]
      exact hd
    · obtain ⟨hset, hoff⟩ := h.off d s hg
      exact ⟨fun hs => (hsame _).1.trans (hset hs),
        fun hs => ⟨(hsame _).1.trans (hoff hs).1, (hsame _).2.trans (hoff hs).2⟩⟩

/-! ## Every run -/

/-- A call of `trigger` that reports a pulse has driven the output high itself and
turned it off after that. -/
theorem pulse_events {Q : CallId → Watch → Except Exc Result → Prop}
    (h : Lawful (watch cfg) Q log) (hghost : ghost (watch cfg) c log = some s)
    (hs : s.relay.pulsed = true) :
    ∃ r between before, .did c (.relay .low) (.ok ()) :: between <:+ log ∧
      .did c (.relay .high) r :: before <:+ between := by
  obtain ⟨e, r, between, t, hmem, ht, hnot, hnow⟩ :=
    h.origin (Φ := fun s => s.relay.pulsed = true) hghost hs fun call hc => by cases hc
  have hback : (t.next e r).relay.pulsed = t.relay.pulsed → False := fun heq =>
    hnot (heq.symm.trans hnow)
  have hlow : (⟨e, r⟩ : Outcome) = ⟨.relay .low, .ok ()⟩ ∧ t.relay.lit = true := by
    cases e with
    | relay op =>
        cases op with
        | low =>
            cases r with
            | error x => exact (hback rfl).elim
            | ok u =>
                simp only [watch_next, Watch.next, RelayWatch.next, Bool.or_eq_true] at hnow
                exact ⟨rfl, hnow.resolve_left hnot⟩
        | _ => exact (hback rfl).elim
    | release lock => cases lock <;> exact (hback rfl).elim
    | env op =>
        refine (hback ?_).elim
        simp only [Watch.next, RelayWatch.answer]
        split
        · split <;> rfl
        · rfl
    | mark m => cases m <;> exact (hback rfl).elim
    | _ => exact (hback rfl).elim
  obtain ⟨hr, hlit⟩ := hlow
  cases hr
  have hlaw := h.suffix ((List.suffix_cons _ _).trans hmem)
  obtain ⟨r', before, hhigh⟩ := lit_event hlaw ht hlit
  exact ⟨r', between, before, hmem, hhigh⟩

/-- In every run: after the shutdown flag of a process was set, none of its calls
drives the output high.  A trigger that reports a pulse has had its own before
the flag.  Once a shutdown has answered that the output is safe, it is low. -/
theorem shutdown_latch (cfg : Nat → Config) (db : Db) (boot : Option String)
    (l : List (Choice Env Call)) :
    (∀ d r earlier, .did d (.relay .high) r :: earlier <:+
        ((gate cfg).run (gateInit db boot) l).log →
      ∀ c r', .did c (.relay .setShutdown) r' ∈ earlier → c.proc ≠ d.proc) ∧
    (∀ c result r earlier, .did c (.mark (.triggerReturned result)) r :: earlier <:+
        ((gate cfg).run (gateInit db boot) l).log → result.activated = true →
      ∃ r' before, .did c (.relay .high) r' :: before <:+ earlier ∧
        ∀ d r'', .did d (.relay .setShutdown) r'' ∈ before → d.proc ≠ c.proc) ∧
    ∀ c, .ended c (.ok (.shutdown true)) ∈ ((gate cfg).run (gateInit db boot) l).log →
      (((gate cfg).run (gateInit db boot) l).state.procs c.proc).pin = false := by
  obtain ⟨hsound, -, hsealed⟩ := gate_run (sealed_keeps cfg) (Sealed.init db boot)
    ((gate cfg).admits_true (gateInit db boot) l) rfl
  have hlaw := hsound.lawful
  have hhigh : ∀ d r earlier, .did d (.relay .high) r :: earlier <:+
        ((gate cfg).run (gateInit db boot) l).log →
      ∀ c r', .did c (.relay .setShutdown) r' ∈ earlier → c.proc ≠ d.proc :=
    fun d r earlier hmem => hsealed.high.at hmem d r rfl
  refine ⟨hhigh, fun c result r earlier hmem hact => ?_, fun c hmem => ?_⟩
  · obtain ⟨-, s, hs, hallow, -⟩ := hlaw.did hmem
    have hsuffix := (List.suffix_cons _ _).trans hmem
    obtain ⟨r', between, before, hlow, hlit⟩ :=
      pulse_events (hlaw.suffix hsuffix) hs (hallow hact)
    have hown := hlit.trans ((List.suffix_cons _ _).trans hlow)
    exact ⟨r', before, hown, hhigh c r' before (hown.trans hsuffix)⟩
  · obtain ⟨later, earlier, hsplit⟩ := List.append_of_mem hmem
    have hend : .ended c (.ok (.shutdown true)) :: earlier <:+
        ((gate cfg).run (gateInit db boot) l).log := ⟨later, hsplit.symm⟩
    obtain ⟨-, s, hs, hQ⟩ := hlaw.ended hend
    obtain ⟨s', hs', hlater⟩ := later_of_suffix hlaw ((List.suffix_cons _ _).trans hend) hs
    exact ((hsealed.off c s' hs').2 (hlater.offAfterShutdown (hQ.shutdown rfl))).2

end GateController
