import GateController.Relay.Shutdown

/-!
# No forgotten output

`MayBeHigh` reads off the log whether the output of a process may still be
energised: no `off()` has succeeded since it was last driven high, or since the
process began.  `Latching` says that a process whose objects exist is then
latched, or the call that holds the trigger lock knows of it.  The rules do not
let that call leave the lock without latching the controller first.
-/

namespace GateController

open Data Effects Proc LocalStore ActuationCoordinator

variable {cfg : Nat → Config} {c : CallId} {s : Watch} {st st' : State} {log : Log} {p : Nat}

/-- No `off()` of the process has succeeded since its output was driven high. -/
def MayBeHigh (p : Nat) : Log → Prop
  | [] => True
  | .did c (.relay .high) _ :: log => c.proc = p ∨ MayBeHigh p log
  | .did c (.relay .low) (.ok _) :: log => c.proc ≠ p ∧ MayBeHigh p log
  | _ :: log => MayBeHigh p log

/-! ## What the operations of a call have to do with it -/

section Steps

variable {env : Env} {e : Eff} {r : Except Exc e.Ans}

/-- An operation makes no difference unless it drives the output high or succeeds
in turning it off. -/
theorem mayBeHigh_did (h : MayBeHigh p (.did c e r :: log)) :
    e = .relay .high ∧ c.proc = p ∨
      MayBeHigh p log ∧ (c.proc = p → (⟨e, r⟩ : Outcome) ≠ ⟨.relay .low, .ok ()⟩) := by
  cases e with
  | relay op =>
      cases op with
      | high =>
          rcases h with h | h
          · exact .inl ⟨rfl, h⟩
          · exact .inr ⟨h, by simp⟩
      | low =>
          cases r with
          | ok u => exact .inr ⟨h.2, fun hp => absurd hp h.1⟩
          | error x => exact .inr ⟨h, by simp⟩
      | _ => exact .inr ⟨h, by simp⟩
  | _ => exact .inr ⟨h, by simp⟩

/-- What a call knows of the output. -/
theorem Watch.next_energised (hon : s.relay.energised = true)
    (hlow : (⟨e, r⟩ : Outcome) ≠ ⟨.relay .low, .ok ()⟩) : (s.next e r).relay.energised = true := by
  cases e with
  | relay op =>
      cases op with
      | low =>
          cases r with
          | ok u => exact absurd rfl hlow
          | error x => exact hon
      | high => rfl
      | _ => exact hon
  | release lock => cases lock <;> exact hon
  | env op =>
      simp only [Watch.next, RelayWatch.answer]
      split
      · split <;> exact hon
      · exact hon
  | mark m => cases m <;> exact hon
  | _ => exact hon

/-- A call has latched the controller with its last word on it. -/
theorem Watch.next_latchedIt (hl : (s.next e r).relay.latchedIt = true) :
    e = .relay (.setLatched true) ∨
      s.relay.latchedIt = true ∧ ∀ b, e ≠ .relay (.setLatched b) := by
  cases e with
  | relay op =>
      cases op with
      | setLatched b =>
          cases (show b = true from hl)
          exact .inl rfl
      | low => cases r <;> exact .inr ⟨hl, by simp⟩
      | _ => exact .inr ⟨hl, by simp⟩
  | release lock => cases lock <;> exact .inr ⟨hl, by simp⟩
  | env op =>
      simp only [Watch.next, RelayWatch.answer] at hl
      split at hl
      · split at hl <;> exact .inr ⟨hl, by simp⟩
      · exact .inr ⟨hl, by simp⟩
  | mark m => cases m <;> exact .inr ⟨hl, by simp⟩
  | _ => exact .inr ⟨hl, by simp⟩

/-- Construction is over when its last operation is made. -/
theorem Watch.next_constructed (hc : (s.next e r).relay.constructed = false) :
    s.relay.constructed = false ∧ e ≠ .relay .constructed := by
  cases e with
  | relay op =>
      cases op with
      | constructed => cases hc
      | low => cases r <;> exact ⟨hc, by simp⟩
      | _ => exact ⟨hc, by simp⟩
  | release lock => cases lock <;> exact ⟨hc, by simp⟩
  | env op =>
      simp only [Watch.next, RelayWatch.answer] at hc
      split at hc
      · split at hc <;> exact ⟨hc, by simp⟩
      · exact ⟨hc, by simp⟩
  | mark m => cases m <;> exact ⟨hc, by simp⟩
  | _ => exact ⟨hc, by simp⟩

/-- The latch was seen open under the trigger lock. -/
theorem Watch.next_unlatched (hu : (s.next e r).relay.unlatched = true) :
    (⟨e, r⟩ : Outcome) = ⟨.relay .isLatched, .ok false⟩ ∧ s.holds .trigger = true ∨
      s.relay.unlatched = true ∧ e ≠ .release .trigger := by
  cases e with
  | relay op =>
      cases op with
      | isLatched =>
          simp only [Watch.next, RelayWatch.next, Bool.and_eq_true, beq_iff_eq] at hu
          cases r with
          | error x => cases hu.2
          | ok b =>
              cases hu.2
              exact .inl ⟨rfl, hu.1⟩
      | low => cases r <;> exact .inr ⟨hu, by simp⟩
      | _ => exact .inr ⟨hu, by simp⟩
  | release lock =>
      cases lock with
      | trigger => cases hu
      | _ => exact .inr ⟨hu, by simp⟩
  | env op =>
      simp only [Watch.next, RelayWatch.answer] at hu
      split at hu
      · split at hu <;> exact .inr ⟨hu, by simp⟩
      · exact .inr ⟨hu, by simp⟩
  | mark m => cases m <;> exact .inr ⟨hu, by simp⟩
  | _ => exact .inr ⟨hu, by simp⟩

/-- The latch after an operation. -/
theorem exec_latched_cases (h : e.exec c env st = some (r, st')) (q : Nat) :
    (st'.procs q).latched = (st.procs q).latched ∧ (∀ b, e = .relay (.setLatched b) → q ≠ c.proc) ∨
      ∃ b, e = .relay (.setLatched b) ∧ q = c.proc ∧ (st'.procs q).latched = b := by
  by_cases he : ∃ b, e = .relay (.setLatched b)
  · obtain ⟨b, rfl⟩ := he
    by_cases hq : q = c.proc
    · refine .inr ⟨b, rfl, hq, ?_⟩
      rw [exec_procs h, if_pos hq]
      rfl
    · exact .inl ⟨by rw [exec_procs_ne h hq], fun _ _ => hq⟩
  · exact .inl ⟨exec_latched h (fun b hb => he ⟨b, hb⟩) q, fun b hb => absurd ⟨b, hb⟩ he⟩

end Steps

/-- Only calls that use the objects of their process come to the relay. -/
theorem Watch.Coherent.inside {cfg : Config} (h : s.Coherent cfg)
    (hs : s.call.isTrigger = true ∨ s.store.called = true) : s.call.inside = true := by
  rcases hs with hs | hs
  · cases hcall : s.call <;> rw [hcall] at hs <;> first | rfl | cases hs
  · have hinh := (h.called hs).2
    unfold Watch.InhibitOf at hinh
    cases hcall : s.call <;> rw [hcall] at hinh <;> first | rfl | exact hinh.elim

/-! ## The invariant -/

/-- What the latch of a process has to do with its calls and its output. -/
structure Latching (cfg : Nat → Config) (st : State) (log : Log) : Prop where
  single : ∀ c d s t, Live c log → Live d log → ghost (watch cfg) c log = some s →
    ghost (watch cfg) d log = some t → s.call = .start → t.call = .start → c.proc = d.proc → c = d
  building : Each (watch cfg) (fun c s => s.call = .start → s.relay.constructed = false →
    (st.procs c.proc).phase = .starting ∧
    (MayBeHigh c.proc log → s.relay.energised = true)) log
  mine : Each (watch cfg) (fun c s => s.call.inside = true ∨ s.call = .start →
    s.relay.latchedIt = true → (st.procs c.proc).latched = true) log
  dark : ∀ p, (st.procs p).phase = .ready → MayBeHigh p log → (st.procs p).latched = true ∨
    ∃ c s, (st.procs p).locks .trigger = some c ∧ ghost (watch cfg) c log = some s ∧
      s.relay.energised = true ∧ s.call.inside = true

theorem Latching.init (db : Db) (boot : Option String) : Latching cfg { db, boot } [] where
  single c d s t h := h.elim
  building d s h := h.elim
  mine d s h := h.elim
  dark p h := by cases h

theorem Latching.began {call : Call} (hbase : Base cfg st log) (h : Latching cfg st log)
    (hnew : ¬ Begun c log) (haccept : call.accept c st = some st') :
    Latching cfg st' (.began c call :: log) := by
  have had := accept_admitted haccept
  have hsame : ∀ q, (st'.procs q).latched = (st.procs q).latched ∧
      (st'.procs q).locks = (st.procs q).locks := fun q => by
    obtain ⟨reports, hq⟩ := had.procs q
    rw [hq]
    exact ⟨rfl, rfl⟩
  -- A process that is being started had no call of that kind.
  have hfirst : call.isStart = true → ∀ d t, Live d log → ghost (watch cfg) d log = some t →
      t.call = .start → d.proc ≠ c.proc := by
    intro hs d t hd hg ht hp
    have hphase := (hbase.each d t hd hg).started (by rw [ht]; rfl)
    rw [hp] at hphase
    exact hphase (had.start hs)
  have hstart : (Watch.start call).call = .start → call.isStart = true := fun hs => by
    rw [show call = .start from hs]
    rfl
  have hghost : ∀ d t, Live d (.began c call :: log) →
      ghost (watch cfg) d (.began c call :: log) = some t → d = c ∧ t = Watch.start call ∨
      d ≠ c ∧ Live d log ∧ ghost (watch cfg) d log = some t := by
    intro d t hd hg
    by_cases hdc : d = c
    · subst hdc
      cases hg.symm.trans ghost_began_self
      exact .inl ⟨rfl, rfl⟩
    · exact .inr ⟨hdc, hd.resolve_left (Ne.symm hdc), (ghost_began_ne (Ne.symm hdc)).symm.trans hg⟩
  refine ⟨fun d₁ d₂ t₁ t₂ hl₁ hl₂ hg₁ hg₂ hs₁ hs₂ hp => ?_,
    h.building.began (fun hs _ => ?_) fun d t hdc hd hb hs hc => ?_,
    h.mine.began (fun _ hl => by cases hl) fun d t _ _ hd hin hl => ?_, fun p hp hhigh => ?_⟩
  · have h₁ := hghost d₁ t₁ hl₁ hg₁
    have h₂ := hghost d₂ t₂ hl₂ hg₂
    rcases h₁ with ⟨rfl, rfl⟩ | ⟨-, hl₁', hg₁'⟩ <;> rcases h₂ with ⟨rfl, rfl⟩ | ⟨-, hl₂', hg₂'⟩
    · rfl
    · exact absurd hp.symm (hfirst (hstart hs₁) d₂ t₂ hl₂' hg₂' hs₂)
    · exact absurd hp (hfirst (hstart hs₂) d₁ t₁ hl₁' hg₁' hs₁)
    · exact h.single d₁ d₂ t₁ t₂ hl₁' hl₂' hg₁' hg₂' hs₁ hs₂ hp
  · have hcall : call = .start := hs
    subst hcall
    exact ⟨by rw [had.phase, if_pos ⟨rfl, rfl⟩], fun _ => rfl⟩
  · obtain ⟨hphase, hon⟩ := hb hs hc
    refine ⟨?_, hon⟩
    rw [had.phase]
    split
    · rfl
    · exact hphase
  · rw [(hsame _).1]
    exact hd hin hl
  · rw [had.phase] at hp
    split at hp
    · cases hp
    · rcases h.dark p hp hhigh with hl | ⟨d, t, hlock, hg, hon, hin⟩
      · exact .inl ((hsame p).1.trans hl)
      · refine .inr ⟨d, t, ?_, ?_, hon, hin⟩
        · rw [(hsame p).2]
          exact hlock
        · rw [ghost_began_ne]
          · exact hg
          · rintro rfl
            exact hnew (hbase.locks p _ _ hlock).2

/-- The latch is only opened during construction. -/
theorem Latching.latched_step {env : Env} {e : Eff} {r : Except Exc e.Ans} (h : Latching cfg st log)
    (hlive : Live c log) (hghost : ghost (watch cfg) c log = some s)
    (hallow : s.allow (cfg c.proc) e) (hexec : e.exec c env st = some (r, st')) {q : Nat}
    (hq : (st.procs q).latched = true) : (st'.procs q).latched = true ∨
      q = c.proc ∧ s.call = .start ∧ s.relay.constructed = false ∧
        (st.procs q).phase = .starting := by
  rcases exec_latched_cases hexec q with ⟨hs, -⟩ | ⟨b, rfl, rfl, hb⟩
  · exact .inl (hs.trans hq)
  · rcases hallow with rfl | ⟨hstart, hnew, -⟩
    · exact .inl hb
    · exact .inr ⟨rfl, hstart, hnew, (h.building c s hlive hghost hstart hnew).1⟩

theorem Latching.building_step {env : Env} {e : Eff} {r : Except Exc e.Ans}
    (hbase : Base cfg st log) (h : Latching cfg st log) (hlive : Live c log)
    (hghost : ghost (watch cfg) c log = some s) (hallow : s.allow (cfg c.proc) e)
    (hexec : e.exec c env st = some (r, st')) :
    Each (watch cfg) (fun d t => t.call = .start → t.relay.constructed = false →
      (st'.procs d.proc).phase = .starting ∧
      (MayBeHigh d.proc (.did c e r :: log) → t.relay.energised = true)) (.did c e r :: log) := by
  -- In a process under construction nobody drives the output high.
  have hnohigh : ∀ q, (st.procs q).phase = .starting → e = .relay .high → c.proc ≠ q := by
    rintro q hq rfl rfl
    have hin := (hbase.coherent c s hghost).inside (hallow.1.2.imp_right fun h => h.2.1)
    have := ((hbase.each c s hlive hghost).ready hin).symm.trans hq
    cases this
  have hphase : ∀ d t, Live d log → ghost (watch cfg) d log = some t → t.call = .start →
      (st.procs d.proc).phase = .starting → (e = .relay .constructed → d ≠ c) →
      (st'.procs d.proc).phase = .starting := by
    intro d t hd hg hs hp hne
    rcases exec_phase_cases hexec d.proc with heq | ⟨rfl, hq, -⟩
    · exact heq.trans hp
    · exact absurd (h.single d c t s hd hlive hg hghost hs hallow.1 hq) (hne rfl)
  intro d t hd hg hs hc
  by_cases hdc : d = c
  · subst hdc
    cases hg.symm.trans (ghost_did_self hghost)
    rw [watch_next] at hs hc ⊢
    rw [Watch.next_call] at hs
    obtain ⟨hc, hne⟩ := Watch.next_constructed hc
    obtain ⟨hp, hon⟩ := h.building d s hlive hghost hs hc
    refine ⟨hphase d s hlive hghost hs hp fun he => absurd he hne, fun hhigh => ?_⟩
    rcases mayBeHigh_did hhigh with ⟨he, -⟩ | ⟨hold, hlow⟩
    · exact absurd rfl (hnohigh _ hp he)
    · exact Watch.next_energised (hon hold) (hlow rfl)
  · rw [ghost_did_ne (Ne.symm hdc)] at hg
    obtain ⟨hp, hon⟩ := h.building d t hd hg hs hc
    refine ⟨hphase d t hd hg hs hp fun _ => hdc, fun hhigh => ?_⟩
    rcases mayBeHigh_did hhigh with ⟨he, hq⟩ | ⟨hold, -⟩
    · exact absurd hq (hnohigh _ hp he)
    · exact hon hold

theorem Latching.mine_step {env : Env} {e : Eff} {r : Except Exc e.Ans}
    (hbase : Base cfg st log) (h : Latching cfg st log) (hlive : Live c log)
    (hghost : ghost (watch cfg) c log = some s) (hallow : s.allow (cfg c.proc) e)
    (hexec : e.exec c env st = some (r, st')) :
    Each (watch cfg) (fun d t => t.call.inside = true ∨ t.call = .start →
      t.relay.latchedIt = true → (st'.procs d.proc).latched = true) (.did c e r :: log) := by
  have hkept : ∀ d t, Live d log → ghost (watch cfg) d log = some t →
      t.call.inside = true ∨ t.call = .start → t.relay.latchedIt = true →
      ((∃ b, e = .relay (.setLatched b)) → d ≠ c) → (st'.procs d.proc).latched = true := by
    intro d t hd hg hin hl hne
    rcases exec_latched_cases hexec d.proc with ⟨hs, -⟩ | ⟨b, rfl, hq, hb⟩
    · exact hs.trans (h.mine d t hd hg hin hl)
    · rcases hallow with rfl | ⟨hstart, hnew, -⟩
      · exact hb
      · -- The constructor opens the latch: no other call uses the objects yet.
        have hphase := (h.building c s hlive hghost hstart hnew).1
        rcases hin with hin | hst
        · have := ((hbase.each d t hd hg).ready hin)
          rw [hq, hphase] at this
          cases this
        · exact absurd (h.single d c t s hd hlive hg hghost hst hstart hq) (hne ⟨b, rfl⟩)
  intro d t hd hg hin hl
  by_cases hdc : d = c
  · subst hdc
    cases hg.symm.trans (ghost_did_self hghost)
    rw [watch_next, Watch.next_call] at hin
    rcases Watch.next_latchedIt hl with rfl | ⟨hold, hne⟩
    · rcases exec_latched_cases hexec d.proc with ⟨-, hs⟩ | ⟨b, hb, -, hs⟩
      · exact absurd rfl (hs true rfl)
      · cases hb
        exact hs
    · exact hkept d s hlive hghost hin hold fun ⟨b, hb⟩ => absurd hb (hne b)
  · rw [ghost_did_ne (Ne.symm hdc)] at hg
    exact hkept d t hd hg hin hl fun _ => hdc

theorem Latching.dark_step {env : Env} {e : Eff} {r : Except Exc e.Ans}
    (hbase : Base cfg st log) (h : Latching cfg st log) (hlive : Live c log)
    (hghost : ghost (watch cfg) c log = some s) (hallow : s.allow (cfg c.proc) e)
    (hexec : e.exec c env st = some (r, st')) (p : Nat) (hp : (st'.procs p).phase = .ready)
    (hhigh : MayBeHigh p (.did c e r :: log)) : (st'.procs p).latched = true ∨
      ∃ d t, (st'.procs p).locks .trigger = some d ∧
        ghost (watch cfg) d (.did c e r :: log) = some t ∧ t.relay.energised = true ∧
        t.call.inside = true := by
  have hatt := hbase.each c s hlive hghost
  have hholder := fun d => exec_holder (r := r) hexec hatt hallow d p .trigger
  rcases mayBeHigh_did hhigh with ⟨rfl, rfl⟩ | ⟨hold, hlow⟩
  · -- The call that drives the output high knows of it and holds the lock.
    refine .inr ⟨c, _, (hholder c fun _ => rfl).2 ?_, ghost_did_self hghost, rfl, ?_⟩
    · rw [if_pos rfl]
      exact hallow.2.1
    · exact (hbase.coherent c s hghost).inside (hallow.1.2.imp_right fun h => h.2.1)
  rcases exec_phase_cases hexec p with hphase | ⟨rfl, rfl, -⟩
  · rw [hphase] at hp
    rcases h.dark p hp hold with hl | ⟨d, t, hlock, hg, hon, hin⟩
    · rcases h.latched_step hlive hghost hallow hexec hl with hl' | ⟨-, -, -, hst⟩
      · exact .inl hl'
      · rw [hst] at hp
        cases hp
    · by_cases hdc : d = c
      · subst hdc
        rw [hghost] at hg
        cases hg
        have hproc := (hbase.locks p _ _ hlock).1
        by_cases hleave : e = .release .trigger
        · subst hleave
          have hl := h.mine d s hlive hghost (.inl hin) (hallow.2.1 rfl hon)
          rw [hproc] at hl
          rcases h.latched_step hlive hghost hallow hexec hl with hl' | ⟨-, -, -, hst⟩
          · exact .inl hl'
          · rw [hst] at hp
            cases hp
        · refine .inr ⟨d, _, (hholder d fun _ => hproc.symm).2 ?_, ghost_did_self hghost,
            Watch.next_energised hon (hlow hproc), ?_⟩
          · rw [if_pos rfl]
            have hheld : s.holds .trigger = true := (hatt.holds _).2 (by rw [hproc]; exact hlock)
            cases e with
            | acquire l => simp [Watch.next, Function.update, hheld]
            | release l =>
                have hne : LockId.trigger ≠ l := by
                  rintro rfl
                  exact hleave rfl
                simp [Watch.next, Function.update, hne, hheld]
            | mark m => cases m <;> exact hheld
            | _ => exact hheld
          · rw [watch_next, Watch.next_call]
            exact hin
      · refine .inr ⟨d, t, (hholder d fun h => absurd h hdc).2 ?_, ?_, hon, hin⟩
        · rw [if_neg hdc]
          exact hlock
        · rw [ghost_did_ne (Ne.symm hdc)]
          exact hg
  · -- The end of construction: the output is off, or the controller was latched.
    obtain ⟨hstart, hnew, hsafe⟩ := hallow
    have hon := (h.building c s hlive hghost hstart hnew).2 hold
    have hl := h.mine c s hlive hghost (.inr hstart) (hsafe hon)
    exact .inl ((exec_latched hexec (by simp) _).trans hl)

theorem Latching.did {env : Env} {e : Eff} {r : Except Exc e.Ans}
    (hbase : Base cfg st log) (h : Latching cfg st log) (hlive : Live c log)
    (hghost : ghost (watch cfg) c log = some s) (hallow : s.allow (cfg c.proc) e)
    (hexec : e.exec c env st = some (r, st')) : Latching cfg st' (.did c e r :: log) where
  single d₁ d₂ t₁ t₂ hl₁ hl₂ hg₁ hg₂ hs₁ hs₂ hp := by
    have hback : ∀ d t, ghost (watch cfg) d (.did c e r :: log) = some t → t.call = .start →
        ∃ t', ghost (watch cfg) d log = some t' ∧ t'.call = .start := by
      intro d t hg hs
      by_cases hdc : d = c
      · subst hdc
        cases hg.symm.trans (ghost_did_self hghost)
        exact ⟨s, hghost, (Watch.next_call s e r).symm.trans hs⟩
      · rw [ghost_did_ne (Ne.symm hdc)] at hg
        exact ⟨t, hg, hs⟩
    obtain ⟨t₁', hg₁', hs₁'⟩ := hback d₁ t₁ hg₁ hs₁
    obtain ⟨t₂', hg₂', hs₂'⟩ := hback d₂ t₂ hg₂ hs₂
    exact h.single d₁ d₂ t₁' t₂' hl₁ hl₂ hg₁' hg₂' hs₁' hs₂' hp
  building := building_step hbase h hlive hghost hallow hexec
  mine := mine_step hbase h hlive hghost hallow hexec
  dark := dark_step hbase h hlive hghost hallow hexec

theorem Latching.crashed (h : Latching cfg st log) (p : Nat) (env : Env) :
    Latching cfg (st.crash p env) (.crashed p :: log) := by
  have hsame : ∀ q, q ≠ p → (st.crash p env).procs q = st.procs q := fun q hq =>
    (crash_procs p env st q).trans (if_neg hq)
  refine ⟨fun d₁ d₂ t₁ t₂ hl₁ hl₂ => h.single d₁ d₂ t₁ t₂ hl₁.2 hl₂.2,
    h.building.crashed fun d t hp _ hd => ?_, h.mine.crashed fun d t hp _ hd => ?_,
    fun q hq hhigh => ?_⟩
  · rw [hsame _ hp]
    exact hd
  · rw [hsame _ hp]
    exact hd
  · have hne : q ≠ p := by
      rintro rfl
      rw [crash_procs, if_pos rfl] at hq
      cases hq
    rw [hsame _ hne] at hq ⊢
    exact h.dark q hq hhigh

theorem latching_keeps (cfg : Nat → Config) :
    Keeps (gate cfg) (watch cfg) (Concluded cfg) (fun _ _ => True) (Base cfg) (Latching cfg) where
  began _ _ _ _ _ hbase h _ hnew haccept := h.began hbase hnew haccept
  did _ _ _ _ _ _ _ _ _ hbase h _ _ hlive hghost hallow hexec :=
    h.did hbase hlive hghost hallow hexec
  ended _ _ _ _ _ _ h _ _ _ :=
    ⟨fun d₁ d₂ t₁ t₂ hl₁ hl₂ => h.single d₁ d₂ t₁ t₂ hl₁.2 hl₂.2, h.building.ended, h.mine.ended,
      h.dark⟩
  crashed _ p env _ _ h _ := h.crashed p env

/-! ## A latched controller -/

/-- The controller of a process is latched for good, and its output was not driven
high since the log was `since`. -/
structure Shut (cfg : Nat → Config) (p : Nat) (since : Log) (st : State) (log : Log) : Prop where
  phase : (st.procs p).phase = .ready ∨ (st.procs p).phase = .dead
  latched : (st.procs p).latched = true
  blind : Each (watch cfg) (fun c s => c.proc = p → s.relay.unlatched = false) log
  high : ∀ c r earlier, .did c (.relay .high) r :: earlier <:+ log → since <:+ earlier →
    c.proc ≠ p

theorem shut_keeps (cfg : Nat → Config) (p : Nat) (since : Log) :
    Keeps (gate cfg) (watch cfg) (Concluded cfg) (fun _ _ => True) (Base cfg)
      (fun st log => Latching cfg st log ∧ Shut cfg p since st log) where
  began w c call s' _ hbase h _ hnew haccept := by
    have had := accept_admitted haccept
    refine ⟨h.1.began hbase hnew haccept, ?_, ?_, h.2.blind.began (fun _ => rfl) fun _ _ _ _ hd => hd,
      fun d r earlier hmem => ?_⟩
    · rw [had.phase]
      split
      · next hs =>
        have hphase := h.2.phase
        rw [hs.2, had.start hs.1] at hphase
        rcases hphase with hphase | hphase <;> cases hphase
      · exact h.2.phase
    · obtain ⟨reports, hq⟩ := had.procs p
      rw [hq]
      exact h.2.latched
    · rcases List.suffix_cons_iff.1 hmem with heq | hmem
      · cases heq
      · exact h.2.high d r earlier hmem
  did w c env e k s r s' _ hbase h _ _ hlive hghost hallow hexec := by
    have hphase : (s'.procs p).phase = .ready ∨ (s'.procs p).phase = .dead := by
      rcases exec_phase_cases hexec p with hp | ⟨-, -, hp⟩
      · rw [hp]
        exact h.2.phase
      · exact .inl hp
    have hlatched : (s'.procs p).latched = true := by
      rcases h.1.latched_step hlive hghost hallow hexec h.2.latched with hl | ⟨-, -, -, hst⟩
      · exact hl
      · have hphase := h.2.phase
        rw [hst] at hphase
        rcases hphase with hphase | hphase <;> cases hphase
    refine ⟨h.1.did hbase hlive hghost hallow hexec, hphase, hlatched,
      h.2.blind.did hghost (fun hp => ?_) fun _ _ _ _ hd => hd, fun d r' earlier hmem => ?_⟩
    · rw [Bool.eq_false_iff]
      intro hu
      rcases Watch.next_unlatched hu with ⟨hout, -⟩ | ⟨hold, -⟩
      · -- The latch was read, and it is shut.
        cases hout
        simp only [gate, Eff.exec, RelayOp.exec, Option.some.injEq, Prod.mk.injEq,
          Except.ok.injEq] at hexec
        rw [hp, h.2.latched] at hexec
        cases hexec.1
      · rw [h.2.blind c s hlive hghost hp] at hold
        cases hold
    · rcases List.suffix_cons_iff.1 hmem with heq | hmem
      · cases heq
        intro _ hp
        have hopen : s.relay.unlatched = true := hallow.2.2.2.1
        rw [h.2.blind c s hlive hghost hp] at hopen
        cases hopen
      · exact h.2.high d r' earlier hmem
  ended w c s r hs hbase h hlive hghost hQ := by
    refine ⟨(latching_keeps cfg).ended w c s r hs hbase h.1 hlive hghost hQ, h.2.phase, h.2.latched,
      h.2.blind.ended, fun d r' earlier hmem => ?_⟩
    rcases List.suffix_cons_iff.1 hmem with heq | hmem
    · cases heq
    · exact h.2.high d r' earlier hmem
  crashed w q env _ _ h _ := by
    have hproc := crash_procs q env w.state p
    refine ⟨h.1.crashed q env, ?_, ?_, h.2.blind.crashed fun _ _ _ _ hd => hd,
      fun d r' earlier hmem => ?_⟩
    · change ((w.state.crash q env).procs p).phase = _ ∨ ((w.state.crash q env).procs p).phase = _
      rw [hproc]
      split
      · exact .inr rfl
      · exact h.2.phase
    · change ((w.state.crash q env).procs p).latched = _
      rw [hproc]
      split <;> exact h.2.latched
    · rcases List.suffix_cons_iff.1 hmem with heq | hmem
      · cases heq
      · exact h.2.high d r' earlier hmem

/-! ## Every run -/

/-- Who has seen the latch open holds the trigger lock. -/
theorem unlatched_holds {Q : CallId → Watch → Except Exc Result → Prop}
    (h : Lawful (watch cfg) Q log) :
    Ever (watch cfg) (fun _ s => s.relay.unlatched = true → s.holds .trigger = true) log := by
  refine h.ever (fun c call hu => by cases hu) fun c s e r _ _ hs hu => ?_
  rcases Watch.next_unlatched hu with ⟨hout, hheld⟩ | ⟨hold, hne⟩
  · cases hout
    exact hheld
  · have hheld := hs hold
    cases e with
    | acquire l => simp [Watch.next, Function.update, hheld]
    | release l =>
        have hne' : LockId.trigger ≠ l := by
          rintro rfl
          exact hne rfl
        simp [Watch.next, Function.update, hne', hheld]
    | mark m => cases m <;> exact hheld
    | _ => exact hheld

/-- In every run: if the objects of a process exist, no call under way holds its
trigger lock and its output may still be energised, then the controller is
latched, and however the run goes on the output is not driven high again.  A
trigger reports a pulse only if it has driven the output high itself and then
turned it off. -/
theorem no_forgotten_output (cfg : Nat → Config) (db : Db) (boot : Option String)
    (l : List (Choice Env Call)) :
    (∀ p, (((gate cfg).run (gateInit db boot) l).state.procs p).phase = .ready →
      (∀ c, Live c ((gate cfg).run (gateInit db boot) l).log →
        (((gate cfg).run (gateInit db boot) l).state.procs p).locks .trigger ≠ some c) →
      MayBeHigh p ((gate cfg).run (gateInit db boot) l).log →
      (((gate cfg).run (gateInit db boot) l).state.procs p).latched = true ∧
      ∀ l' c r earlier, .did c (.relay .high) r :: earlier <:+
          ((gate cfg).run (gateInit db boot) (l ++ l')).log →
        ((gate cfg).run (gateInit db boot) l).log <:+ earlier → c.proc ≠ p) ∧
    ∀ c result r earlier, .did c (.mark (.triggerReturned result)) r :: earlier <:+
        ((gate cfg).run (gateInit db boot) l).log → result.activated = true →
      ∃ r' between before, .did c (.relay .low) (.ok ()) :: between <:+ earlier ∧
        .did c (.relay .high) r' :: before <:+ between := by
  obtain ⟨hsound, hbase, hlatching⟩ := gate_run (latching_keeps cfg) (Latching.init db boot)
    ((gate cfg).admits_true (gateInit db boot) l) rfl
  have hlaw := hsound.lawful
  generalize hw : (gate cfg).run (gateInit db boot) l = w at hsound hbase hlatching hlaw
  refine ⟨fun p hready hfree hhigh => ?_, fun c result r earlier hmem hact => ?_⟩
  · have hlatched : (w.state.procs p).latched = true := by
      rcases hlatching.dark p hready hhigh with hl | ⟨c, s, hlock, -⟩
      · exact hl
      · exact absurd hlock (hfree c (hbase.held p _ c hlock (by simp [hready])))
    refine ⟨hlatched, fun l' c r earlier hmem hsince => ?_⟩
    have hshut : Shut cfg p w.log w.state w.log := by
      refine ⟨.inl hready, hlatched, fun d t hd hg hp => ?_, fun d r' before hmem' hsince' => ?_⟩
      · rw [Bool.eq_false_iff]
        intro hu
        have hheld := (hbase.each d t hd hg).holds .trigger
        rw [hp] at hheld
        exact hfree d hd (hheld.1 (unlatched_holds hlaw d t hg hu))
      · have hlt : before.length + 1 ≤ w.log.length := hmem'.length_le
        exact absurd hsince'.length_le (by omega)
    rw [Machine.run_append, hw] at hmem
    obtain ⟨-, -, -, hshut'⟩ := gate_run_from (shut_keeps cfg p w.log) hsound hbase
      ⟨hlatching, hshut⟩ ((gate cfg).admits_true w l')
    exact hshut'.high c r earlier hmem hsince
  · obtain ⟨-, s, hs, hallow, -⟩ := hlaw.did hmem
    exact pulse_events (hlaw.suffix ((List.suffix_cons _ _).trans hmem)) hs (hallow hact)

end GateController
