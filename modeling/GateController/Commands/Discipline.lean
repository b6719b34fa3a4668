import GateController.Actuation.Discipline

/-!
# Direct commands keep to the rules

`execute` either leaves the store alone, or goes through the coordinator, or
plays a prompt under a claim of its own.
-/

namespace GateController

open Data Effects Proc LocalStore ActuationCoordinator

variable {cfg : Nat → Config} {c : CallId} {s : Watch}

/-- What a command leaves behind. -/
structure Responded (s s' : Watch) (r : Except Exc DirectCommandExecutor.Response) : Prop where
  call : s'.call = s.call
  holds : s'.holds = s.holds
  finalized : ∀ result, s'.store.returned = some result → s'.relay.lit = true →
    s'.store.finalized.isSome ∨ s'.store.clockFailed = true
  explained : ∀ response, r = .ok response → s'.store.Explained response.status response.detail

namespace DirectCommandExecutor

variable {command : Command}

theorem isPrompt_of_command {cfg : Config} {call : Call} (h : call.command? cfg = some command) :
    call.isPrompt cfg = (command.kind == .playPrompt) := by
  simp [Call.isPrompt, h]

/-! ## Opening the gate -/

theorem openGate_obeys {payload : Json} {now : Option DateTime}
    (hcommand : Call.command? (cfg c.proc) (.execute payload now) = some command)
    (hkind : command.kind = .openGate) :
    Obeys (watch cfg c) (Responded (Watch.start (.execute payload now)))
      (Watch.start (.execute payload now)) (openGate c (cfg c.proc) command now) := by
  have hprompt : Call.isPrompt (cfg c.proc) (.execute payload now) = false := by
    rw [isPrompt_of_command hcommand, hkind]
    rfl
  have hactuate : ∀ s' receivedAt, Quiet (Watch.start (.execute payload now)) s' →
      Obeys (watch cfg c) (Responded (Watch.start (.execute payload now))) s' (do
        let execution ← actuate c (cfg c.proc) {
          event := openEvent command receivedAt
          preActivationInhibit := some (expiryInhibition (cfg c.proc) command.expiresAt now) }
        return responseOf execution) := by
    intro s' receivedAt hq
    obtain ⟨e, he⟩ := hq.relay
    rw [Obeys.bind_iff]
    refine (actuate_obeys ?_).mono fun s'' r h => ?_
    · refine ⟨?_, ?_, ?_, ?_, ?_, ?_, ?_, ?_, ?_, ?_, ?_, ?_⟩
      · rw [hq.store]
        exact ⟨rfl, rfl, rfl, rfl, rfl, rfl, rfl, rfl, rfl, rfl⟩
      · rw [hq.store]
        rfl
      · rw [hq.holds]
        rfl
      · rw [hq.holds]
        rfl
      · rw [hq.holds]
        rfl
      · rw [he]
        rfl
      · rw [he]
        rfl
      · rw [he]
        rfl
      · rw [he]
        rfl
      · rw [hq.call]
        exact hprompt
      · intro command' hc
        rw [hq.call] at hc
        cases hcommand.symm.trans hc
        exact ⟨by rw [hq.store]; rfl, rfl⟩
      · intro s₂ m hcall _ _ _
        have hcall' : s₂.call = .execute payload now := hcall.trans hq.call
        simp only [Watch.InhibitOf, hcall']
        exact ⟨command, hcommand, rfl⟩
    · cases r with
      | error x =>
          exact ⟨h.call.trans hq.call, h.holds.trans hq.holds, h.finalized, fun _ hr => by cases hr⟩
      | ok execution =>
          refine ⟨h.call.trans hq.call, h.holds.trans hq.holds, h.finalized, fun response hr => ?_⟩
          cases hr
          exact h.explained execution rfl
  unfold openGate
  cases now with
  | some now => exact hactuate _ now (Quiet.refl _)
  | none =>
      refine obeys_quiet_bind (only_env _) (fun s' now hq => hactuate s' now hq) fun s' x hq =>
        ⟨hq.call, hq.holds, fun _ hr => ?_, fun _ hr => by cases hr⟩
      rw [hq.store] at hr
      cases hr

/-! ## Playing a prompt -/

/-- A prompt that works under its lock. -/
structure Prompting (cfg : Config) (command : Command) (s : Watch) : Prop where
  parsed : s.call.command? cfg = some command
  kind : command.kind = .playPrompt
  prompt : s.holds .prompt = true
  marked : s.store.marked = none
  finalized : s.store.finalized = none
  returned : s.store.returned = none
  played : s.store.played = false
  lit : s.relay.lit = false

theorem Prompting.quiet {cfg : Config} {s' : Watch} (h : Prompting cfg command s)
    (hq : Quiet s s') : Prompting cfg command s' := by
  obtain ⟨e, he⟩ := hq.relay
  obtain ⟨h₁, h₂, h₃, h₄, h₅, h₆, h₇, h₈⟩ := h
  refine ⟨?_, h₂, ?_, ?_, ?_, ?_, ?_, ?_⟩ <;> simpa only [hq.call, hq.holds, hq.store, he]

theorem Prompting.isPrompt {cfg : Config} (h : Prompting cfg command s) :
    s.call.isPrompt cfg = true := by
  rw [isPrompt_of_command h.parsed, h.kind]
  rfl

theorem Prompting.claimLock {cfg : Config} (h : Prompting cfg command s) :
    s.call.claimLock cfg = .prompt := by
  simp [Call.claimLock, h.isPrompt]

/-- What a prompt has done when it leaves its lock. -/
structure Prompted (s s' : Watch) (r : Except Exc Response) : Prop where
  call : s'.call = s.call
  holds : s'.holds = s.holds
  returned : s'.store.returned = none
  explained : ∀ response, r = .ok response → s'.store.Explained response.status response.detail

theorem Prompted.rebase {s s₁ s' : Watch} {r : Except Exc Response} (h : Prompted s₁ s' r)
    (call : s₁.call = s.call) (holds : s₁.holds = s.holds) : Prompted s s' r :=
  ⟨h.call.trans call, h.holds.trans holds, h.returned, h.explained⟩

/-- Whether the prompt was played or not, nothing else has changed. -/
theorem promptOutcome_obeys (h : Prompting (cfg c.proc) command s)
    {args : ClaimArgs} {claim : ActuationClaim} (hown : s.store.Owns args claim) :
    Obeys (watch cfg c) (fun s' _ => s'.call = s.call ∧ s'.holds = s.holds ∧
      s'.relay.lit = false ∧ ∃ played, s'.store = { s.store with played }) s
      (promptOutcome (cfg c.proc) command) := by
  unfold promptOutcome
  have hquiet : ∀ s', Quiet s s' → s'.call = s.call ∧ s'.holds = s.holds ∧
      s'.relay.lit = false ∧ ∃ played, s'.store = { s.store with played } := by
    intro s' hq
    exact ⟨hq.call, hq.holds, (h.quiet hq).lit, s.store.played, hq.store⟩
  refine obeys_quiet_bind (only_asking _) (fun s' i hq => ?_) fun s' x hq => hquiet s' hq
  cases i with
  | some i => exact hquiet s' hq
  | none =>
      dsimp only
      split
      · exact hquiet s' hq
      · have h' := h.quiet hq
        rw [Obeys.bind_iff]
        refine Obeys.perform ⟨h'.prompt, h'.played, h'.finalized, h'.isPrompt, args, claim, ?_⟩
          fun r _ => ?_
        · rw [hq.store]
          exact hown
        · have hdone : (s'.next (.device (.play command.promptKey)) r).call = s.call ∧
              (s'.next (.device (.play command.promptKey)) r).holds = s.holds ∧
              (s'.next (.device (.play command.promptKey)) r).relay.lit = false ∧
              ∃ played, (s'.next (.device (.play command.promptKey)) r).store =
                { s.store with played } := by
            refine ⟨hq.call, hq.holds, h'.lit, true, ?_⟩
            simp only [Watch.next, StoreWatch.nextDevice, hq.store]
          cases r with
          | error x => exact hdone
          | ok played =>
              dsimp only
              split <;> exact hdone

theorem playClaimed_obeys (h : Prompting (cfg c.proc) command s)
    {args : ClaimArgs} {claim : ActuationClaim} (hown : s.store.Owns args claim)
    (hkey : claim.idempotencyKey = claimKey command.idempotencyKey) :
    Obeys (watch cfg c) (Prompted s) s (playClaimed (cfg c.proc) command claim) := by
  rw [playClaimed, Obeys.bind_iff]
  refine (promptOutcome_obeys h hown).mono fun s₁ r h₁ => ?_
  obtain ⟨hcall, hholds, hlit, played, hstore⟩ := h₁
  have hraise : ∀ s₂ x, Quiet s₁ s₂ → Prompted s s₂ (.error x) := by
    intro s₂ x hq
    refine ⟨hq.call.trans hcall, hq.holds.trans hholds, ?_, fun _ hr => by cases hr⟩
    rw [hq.store, hstore]
    exact h.returned
  cases r with
  | error x => exact hraise s₁ x (Quiet.refl _)
  | ok outcome =>
      refine obeys_quiet_bind (only_env _) (fun s₂ receivedAt hq₂ => ?_) fun s₂ x => hraise s₂ x
      refine obeys_quiet_bind (only_env _) (fun s₃ decisionAt hq₃ => ?_) fun s₃ x hq₃ =>
        hraise s₃ x (hq₂.trans hq₃)
      have hq := hq₂.trans hq₃
      have hstore₃ : s₃.store = { s.store with played } := hq.store.trans hstore
      obtain ⟨e, he⟩ := hq.relay
      have hlit₃ : s₃.relay.lit = false := by
        rw [he]
        exact hlit
      have hcall₃ := hq.call.trans hcall
      have hholds₃ := hq.holds.trans hholds
      refine obeys_exceptException (R := fun s' r =>
        s'.call = s.call ∧ s'.holds = s.holds ∧ s'.store.returned = none ∧
        ∃ (args : FinalizeArgs) (done : Bool), s'.store.finalized = some (args, done) ∧
          (∀ response, r = .ok response → done = true ∧
            args.terminalStatus = some response.status ∧ args.terminalDetail = response.detail) ∧
          ∀ x, r = .error x → done = false) ?_ ?_ ?_ ?_
      · rw [Obeys.bind_iff]
        refine Obeys.perform ⟨?_, ?_, ⟨args, ?_⟩, ?_, ?_, ?_, fun _ => ⟨rfl, rfl⟩, ?_⟩ fun r _ => ?_
        · rw [hcall₃, h.claimLock, hholds₃]
          exact h.prompt
        · rw [hstore₃]
          exact h.finalized
        · rw [hstore₃]
          exact hown
        · exact congrArg some hkey.symm
        · simp [hlit₃]
        · simp [hstore₃, h.returned]
        · simp [hstore₃, h.returned]
        · have hreturned : s₃.store.returned = none := by
            rw [hstore₃]
            exact h.returned
          cases r with
          | error x =>
              exact ⟨hcall₃, hholds₃, hreturned, _, false, rfl, fun _ h => (by cases h), fun _ _ => rfl⟩
          | ok id =>
              refine ⟨hcall₃, hholds₃, hreturned, _, true, rfl, fun response h => ?_,
                fun _ h => by cases h⟩
              cases h
              exact ⟨rfl, rfl, rfl⟩
      · rintro s' response ⟨hc, hh, hr, args, done, hfin, hok, -⟩
        obtain ⟨rfl, hs, hd⟩ := hok response rfl
        refine ⟨hc, hh, hr, fun response' h => ?_⟩
        cases h
        exact .finalized args hfin hs hd
      · rintro s' x ⟨hc, hh, hr, args, done, hfin, -, herr⟩ _
        cases herr x rfl
        refine ⟨hc, hh, hr, fun response' h => ?_⟩
        cases h
        exact .unfinalized args hfin rfl rfl
      · rintro s' x ⟨hc, hh, hr, -⟩ _
        exact ⟨hc, hh, hr, fun _ h => by cases h⟩

/-- What follows the claim of a prompt. -/
theorem prompt_claim_obeys (h : Prompting (cfg c.proc) command s) (hclaimed : s.store.claimed = none)
    (hterminal : s.store.terminal = some none) :
    Obeys (watch cfg c) (Prompted s) s (do
      let claimed ← (do
        let claimedAt ← env .clock
        store (.claimActuation { idempotencyKey := claimKey command.idempotencyKey, claimedAt }) :
          Proc ActuationClaim).attempt
      match claimed with
      | .error x =>
          if x.isException then return ⟨"failed", some "actuation_inhibit_error"⟩ else .raise x
      | .ok claim =>
          if claim.status ≠ .claimed then return ⟨"failed", some claim.status.text⟩
          else playClaimed (cfg c.proc) command claim) := by
  have herror : ∀ s' x, s'.call = s.call → s'.holds = s.holds → s'.store.returned = none →
      Obeys (watch cfg c) (Prompted s) s'
        (if Exc.isException x then return ⟨"failed", some "actuation_inhibit_error"⟩ else .raise x) := by
    intro s' x hcall hholds hreturned
    split
    · refine ⟨hcall, hholds, hreturned, fun response h => ?_⟩
      cases h
      exact .inhibited rfl rfl
    · exact ⟨hcall, hholds, hreturned, fun _ h => by cases h⟩
  rw [Obeys.bind_iff, Obeys.attempt_iff]
  refine obeys_quiet_bind (only_env _) (fun s₁ claimedAt hq => ?_) fun s₁ x hq => ?_
  · have h₁ := h.quiet hq
    refine Obeys.perform ⟨?_, ?_, ?_, ?_⟩ fun r hr => ?_
    · rw [hq.store]
      exact hclaimed
    · rw [h₁.claimLock]
      exact h₁.prompt
    · intro command' hc
      cases h₁.parsed.symm.trans hc
      exact ⟨by rw [hq.store]; exact hterminal, rfl⟩
    · rw [h₁.isPrompt]
      exact ⟨rfl, rfl⟩
    · cases r with
      | error x => exact herror _ x hq.call hq.holds h₁.returned
      | ok claim =>
          obtain ⟨hkey, hcool⟩ := hr.1 claim rfl
          dsimp only
          split
          · next hstatus =>
            refine ⟨hq.call, hq.holds, h₁.returned, fun response h => ?_⟩
            cases h
            exact .taken _ claim rfl hstatus (hcool rfl) rfl rfl
          · next hstatus =>
            have hp : Prompting (cfg c.proc) command (s₁.next (.store (.claimActuation
                { idempotencyKey := claimKey command.idempotencyKey, claimedAt })) (.ok claim)) :=
              ⟨h₁.parsed, h₁.kind, h₁.prompt, h₁.marked, h₁.finalized, h₁.returned, h₁.played, h₁.lit⟩
            exact (playClaimed_obeys hp ⟨rfl, not_not.1 hstatus, hkey⟩ hkey).mono fun _ _ h =>
              h.rebase hq.call hq.holds
  · refine herror s₁ x hq.call hq.holds ?_
    rw [hq.store]
    exact h.returned

theorem playPrompt_obeys {payload : Json} {now : Option DateTime}
    (hcommand : Call.command? (cfg c.proc) (.execute payload now) = some command)
    (hkind : command.kind = .playPrompt) :
    Obeys (watch cfg c) (Responded (Watch.start (.execute payload now)))
      (Watch.start (.execute payload now)) (playPrompt (cfg c.proc) command) := by
  have hlock : Call.claimLock (cfg c.proc) (.execute payload now) = .prompt := by
    simp [Call.claimLock, isPrompt_of_command hcommand, hkind]
  have hp : Prompting (cfg c.proc) command { Watch.start (.execute payload now) with
      holds := Function.update (Watch.start (.execute payload now)).holds .prompt true } :=
    ⟨hcommand, hkind, by simp, rfl, rfl, rfl, rfl, rfl⟩
  unfold playPrompt
  refine obeys_withLock (R := Prompted { Watch.start (.execute payload now) with
      holds := Function.update (Watch.start (.execute payload now)).holds .prompt true })
    ⟨rfl, fun _ => ⟨hlock.symm, ⟨rfl, rfl, rfl, rfl, rfl, rfl, rfl, rfl, rfl, rfl⟩, fun _ _ => rfl⟩⟩ ?_
    fun s' r h => ?_
  · rw [Obeys.bind_iff]
    refine Obeys.perform (fun command' hc => ?_) fun r _ => ?_
    · cases hcommand.symm.trans hc
      exact ⟨by rw [hp.claimLock]; exact hp.prompt, rfl⟩
    · cases r with
      | error x => exact ⟨rfl, rfl, rfl, fun _ h => by cases h⟩
      | ok terminal =>
          cases terminal with
          | some terminal =>
              refine ⟨rfl, rfl, rfl, fun response h => ?_⟩
              cases h
              exact .stored terminal rfl rfl rfl
          | none =>
              refine Obeys.mono (prompt_claim_obeys ⟨hp.parsed, hp.kind, hp.prompt, hp.marked,
                hp.finalized, hp.returned, hp.played, hp.lit⟩ rfl rfl) fun _ _ h => h.rebase rfl rfl
  · refine ⟨⟨?_, fun h => (by cases h), fun h => by cases h⟩, h.call, ?_, fun _ hr => ?_, h.explained⟩
    · rw [h.holds]
      simp
    · simp only [Watch.next, h.holds, Function.update_idem]
      exact Function.update_eq_self _ _
    · have hnone : (s'.next (.release .prompt) (.ok ())).store.returned = none := h.returned
      rw [hnone] at hr
      cases hr

end DirectCommandExecutor

/-- What a call of `execute` leaves behind. -/
structure Executed (cfg : Config) (executed : Call) (s' : Watch)
    (r : Except Exc DirectCommandExecutor.Response) : Prop where
  call : s'.call = executed
  released : ∀ lock, s'.holds lock = false
  finalized : ∀ result, s'.store.returned = some result → s'.relay.lit = true →
    s'.store.finalized.isSome ∨ s'.store.clockFailed = true
  explained : ∀ response command, r = .ok response → executed.command? cfg = some command →
    s'.store.Explained response.status response.detail

namespace DirectCommandExecutor

/-- `execute`, whatever its payload. -/
theorem execute_obeys (payload : Json) (now : Option DateTime) :
    Obeys (watch cfg c) (Executed (cfg c.proc) (.execute payload now))
      (Watch.start (.execute payload now)) (execute c (cfg c.proc) payload now) := by
  have hnone : ∀ r, Call.command? (cfg c.proc) (.execute payload now) = none →
      Executed (cfg c.proc) (.execute payload now) (Watch.start (.execute payload now)) r := by
    intro r hc
    refine ⟨rfl, fun _ => rfl, fun _ h => (by cases h), fun _ _ _ h => ?_⟩
    rw [hc] at h
    cases h
  unfold execute
  cases hparse : parse (cfg c.proc) payload with
  | error x => exact hnone (.error x) (by simp [Call.command?, hparse])
  | ok parsed =>
      cases parsed with
      | none => exact hnone (.ok _) (by simp [Call.command?, hparse])
      | some command =>
          change Obeys _ _ _ (if command.controllerId ≠ (cfg c.proc).controllerId then _ else _)
          by_cases hid : command.controllerId = (cfg c.proc).controllerId
          · rw [if_neg (not_not.2 hid)]
            have hcommand : Call.command? (cfg c.proc) (.execute payload now) = some command := by
              simp [Call.command?, hparse, hid]
            cases hkind : command.kind with
            | openGate =>
                exact (openGate_obeys hcommand hkind).mono fun s' r h =>
                  ⟨h.call, fun lock => (congrFun h.holds lock), h.finalized,
                    fun response _ hr _ => h.explained response hr⟩
            | playPrompt =>
                exact (playPrompt_obeys hcommand hkind).mono fun s' r h =>
                  ⟨h.call, fun lock => (congrFun h.holds lock), h.finalized,
                    fun response _ hr _ => h.explained response hr⟩
          · rw [if_pos hid]
            exact hnone (.ok _) (by simp [Call.command?, hparse, hid])

end DirectCommandExecutor

end GateController
