import GateController.Relay.Discipline

/-!
# The coordinator keeps to the rules

`actuate` from the taking of its lock to the leaving of it.  `Explained` says
what the answer of a call rests on: an outcome that was stored before, a claim
that was not granted, or an outcome that the call itself has stored or failed to
store.
-/

namespace GateController

open Data Effects Proc LocalStore ActuationCoordinator

variable {cfg : Nat → Config} {c : CallId} {s : Watch} {a : ActuateArgs} {key : String}

/-- What an answer rests on. -/
inductive StoreWatch.Explained (v : StoreWatch) (status : String) (detail : Option String) :
    Prop where
  | stored (terminal : TerminalOutcome) (h : v.terminal = some (some terminal))
      (hstatus : terminal.status = status) (hdetail : terminal.detail = detail)
  | inhibited (hstatus : status = "failed") (hdetail : detail = some "actuation_inhibit_error")
  | taken (args : ClaimArgs) (claim : ActuationClaim) (h : v.claimed = some (args, claim))
      (hclaimed : claim.status ≠ .claimed) (hcooldown : claim.status ≠ .cooldown)
      (hstatus : status = "failed") (hdetail : detail = some claim.status.text)
  | refused (args : TerminalArgs) (h : v.refused = some (args, true)) (hstatus : status = "failed")
      (hdetail : detail = some "cooldown")
  | finalized (args : FinalizeArgs) (h : v.finalized = some (args, true))
      (hstatus : args.terminalStatus = some status) (hdetail : args.terminalDetail = detail)
  | unfinalized (args : FinalizeArgs) (h : v.finalized = some (args, false))
      (hstatus : status = "failed") (hdetail : detail = some "indeterminate_claim")

/-- The state in which `actuate` works under its lock. -/
structure Acting (cfg : Config) (a : ActuateArgs) (key : String) (s : Watch) : Prop where
  fresh : s.store.Fresh
  inhibition : s.store.inhibition = none
  coordinator : s.holds .coordinator = true
  trigger : s.holds .trigger = false
  boundary : s.holds .boundary = false
  unlatched : s.relay.unlatched = false
  cleared : s.relay.cleared = false
  lit : s.relay.lit = false
  energised : s.relay.energised = false
  prompt : s.call.isPrompt cfg = false
  event : a.event.idempotencyKey = some key
  command : ∀ command, s.call.command? cfg = some command →
    key = DirectCommandExecutor.claimKey command.idempotencyKey
  inhibit : ∀ (s' : Watch) (m : MarkArgs), s'.call = s.call →
    (∀ value, s.started = some value → s'.started = some value) → s'.store.marked = some m →
    m.event = a.event → s'.InhibitOf cfg a.preActivationInhibit

theorem Acting.quiet {cfg : Config} {s' : Watch} (h : Acting cfg a key s) (hq : Quiet s s') :
    Acting cfg a key s' := by
  obtain ⟨e, he⟩ := hq.relay
  refine ⟨?_, ?_, ?_, ?_, ?_, ?_, ?_, ?_, ?_, ?_, h.event, ?_, fun s₂ m hcall hstarted =>
    h.inhibit s₂ m (hcall.trans hq.call) fun v hv => hstarted v (hq.started v hv)⟩
  · simpa only [hq.store] using h.fresh
  · simpa only [hq.store] using h.inhibition
  · simpa only [hq.holds] using h.coordinator
  · simpa only [hq.holds] using h.trigger
  · simpa only [hq.holds] using h.boundary
  · simpa only [he] using h.unlatched
  · simpa only [he] using h.cleared
  · simpa only [he] using h.lit
  · simpa only [he] using h.energised
  · simpa only [hq.call] using h.prompt
  · simpa only [hq.call] using h.command

/-- What `actuate` leaves behind. -/
structure Acted (s s' : Watch) (r : Except Exc ActuationExecution) : Prop where
  call : s'.call = s.call
  holds : s'.holds = s.holds
  stamped : s'.relay.lit = true → s'.store.returned.isSome →
    s'.store.stamped.isSome ∨ s'.store.clockFailed = true
  finalized : ∀ result, s'.store.returned = some result → s'.relay.lit = true →
    s'.store.finalized.isSome ∨ s'.store.clockFailed = true
  explained : ∀ e, r = .ok e → s'.store.Explained e.terminalStatus e.terminalDetail

/-- A call that has not come back from the relay owes nothing but its answer. -/
theorem Acted.of_returned {s s' : Watch} {r : Except Exc ActuationExecution}
    (call : s'.call = s.call) (holds : s'.holds = s.holds) (h : s'.store.returned = none)
    (explained : ∀ e, r = .ok e → s'.store.Explained e.terminalStatus e.terminalDetail) :
    Acted s s' r :=
  ⟨call, holds, fun _ hr => by simp [h] at hr, fun _ hr => by simp [h] at hr, explained⟩

/-- Only the call and the locks of the first state matter. -/
theorem Acted.rebase {s s₁ s' : Watch} {r : Except Exc ActuationExecution} (h : Acted s₁ s' r)
    (call : s₁.call = s.call) (holds : s₁.holds = s.holds) : Acted s s' r :=
  ⟨h.call.trans call, h.holds.trans holds, h.stamped, h.finalized, h.explained⟩

theorem Acted.raise_of_returned {s s' : Watch} {x : Exc} (call : s'.call = s.call)
    (holds : s'.holds = s.holds) (h : s'.store.returned = none) : Acted s s' (.error x) :=
  .of_returned call holds h fun _ hr => by cases hr

namespace ActuationCoordinator

theorem claimLock_of_prompt {cfg : Config} {call : Call} (h : call.isPrompt cfg = false) :
    call.claimLock cfg = .coordinator := by
  simp [Call.claimLock, h]

/-! ## Answers that were stored before -/

theorem reconcileOutbox_obeys {eventId : Option Nat} {payload : Option Fields}
    (h : ∀ id, eventId = some id → id ∈ s.store.eventIds) :
    Obeys (watch cfg c) (fun s' _ => s' = s) s (reconcileOutbox eventId payload) := by
  cases eventId with
  | none => cases payload <;> rfl
  | some id =>
      cases payload with
      | none => rfl
      | some payload =>
          rw [reconcileOutbox, Obeys.bind_iff]
          refine Obeys.perform (h id rfl) fun r _ => ?_
          cases r <;> rfl

theorem replay_obeys {terminal : TerminalOutcome} (hterminal : s.store.terminal = some (some terminal))
    (hids : ∀ id, terminal.eventId = some id → id ∈ s.store.eventIds)
    (hreturned : s.store.returned = none) :
    Obeys (watch cfg c) (Acted s) s (replay a terminal) := by
  have hraise : ∀ x, Acted s s (.error x) := fun x => .raise_of_returned rfl rfl hreturned
  have hanswer : ∀ e : ActuationExecution, e.terminalStatus = terminal.status →
      e.terminalDetail = terminal.detail → Acted s s (.ok e) := fun e hs hd =>
    .of_returned rfl rfl hreturned fun e' he => by
      cases he
      exact .stored terminal hterminal hs.symm hd.symm
  rw [replay, Obeys.bind_iff]
  refine (reconcileOutbox_obeys hids).mono fun s' r hs => ?_
  subst hs
  cases r with
  | error x => exact hraise x
  | ok u =>
      dsimp only
      cases a.commandAck with
      | none => exact hanswer _ rfl rfl
      | some ack =>
          dsimp only
          rw [Obeys.bind_iff]
          refine Obeys.perform trivial fun r _ => ?_
          cases r with
          | error x => exact hraise x
          | ok u => exact hanswer _ rfl rfl

/-! ## Claiming -/

/-- The watch after a claim was answered. -/
def claimedWatch (cfg : Config) (a : ActuateArgs) (key : String) (claimTime cutoff : DateTime)
    (now : ℚ) (bootId : Option String) (claim : ActuationClaim) (s : Watch) : Watch :=
  { s with store := { s.store with
    monotonic := some now
    bootId := some bootId
    claimed := some (claimArgs cfg a key claimTime cutoff now bootId, claim) } }

theorem claim_obeys (h : Acting (cfg c.proc) a key s)
    (hterminal : ∀ command, s.call.command? (cfg c.proc) = some command →
      s.store.terminal = some none) (claimTime : DateTime) :
    Obeys (watch cfg c) (fun s' r => match r with
      | .ok (now, bootId, claim) => claim.idempotencyKey = key ∧ ∃ cutoff,
          s' = claimedWatch (cfg c.proc) a key claimTime cutoff now bootId claim s
      | .error _ => s'.call = s.call ∧ s'.holds = s.holds ∧ s'.store.returned = none) s
      (claim (cfg c.proc) a key claimTime) := by
  rw [claim, Obeys.bind_iff]
  refine Obeys.perform h.coordinator fun r _ => ?_
  cases r with
  | error x => exact ⟨rfl, rfl, h.fresh.returned⟩
  | ok now =>
      dsimp only
      cases hcut : DateTime.minus claimTime (cfg c.proc).cooldown with
      | error x => exact ⟨rfl, rfl, h.fresh.returned⟩
      | ok cutoff =>
          change Obeys _ _ _ (mem .bootId >>= _)
          rw [Obeys.bind_iff]
          refine Obeys.perform trivial fun r hr => ?_
          obtain ⟨bootId, rfl⟩ := hr.1
          dsimp only
          rw [Obeys.bind_iff]
          refine Obeys.perform ?_ fun r hr => ?_
          · refine ⟨h.fresh.claimed, ?_, fun command hc => ⟨hterminal command hc, h.command command hc⟩,
              ?_⟩
            · change s.holds (s.call.claimLock _) = true
              rw [claimLock_of_prompt h.prompt]
              exact h.coordinator
            · change if s.call.isPrompt _ = true then _ else _
              rw [h.prompt]
              exact ⟨a.event, now, rfl, h.event, rfl, rfl, rfl, rfl⟩
          · cases r with
            | error x => exact ⟨rfl, rfl, h.fresh.returned⟩
            | ok claim => exact ⟨(hr.1 claim rfl).1, cutoff, rfl⟩

/-! ## Refusing -/

theorem refuse_obeys {args : ClaimArgs} {claim : ActuationClaim} (claimTime : DateTime)
    (hclaimed : s.store.claimed = some (args, claim)) (hstatus : claim.status = .cooldown)
    (hkey : a.event.idempotencyKey = some args.idempotencyKey)
    (hheld : s.holds .coordinator = true) (hreturned : s.store.returned = none) :
    Obeys (watch cfg c) (Acted s) s (refuse a claimTime) := by
  rw [refuse, Obeys.bind_iff]
  refine Obeys.perform (.inr ⟨hheld, rfl, rfl, ⟨args, claim, hclaimed, hstatus, hkey⟩, rfl, rfl⟩)
    fun r _ => ?_
  cases r with
  | error x => exact .raise_of_returned rfl rfl hreturned
  | ok id =>
      refine .of_returned rfl rfl hreturned fun e he => ?_
      cases he
      exact .refused _ rfl rfl rfl

/-- The last store call of `actuate`, and the answer by its outcome. -/
theorem finalize_obeys {s₀ : Watch} {args : FinalizeArgs} {answer : Nat → ActuationExecution}
    (hcall : s.call = s₀.call) (hholds : s.holds = s₀.holds)
    (hallow : s.AllowFinalize (cfg c.proc) args)
    (hstamped : s.relay.lit = true → s.store.returned.isSome →
      s.store.stamped.isSome ∨ s.store.clockFailed = true)
    (hstatus : ∀ id, args.terminalStatus = some (answer id).terminalStatus)
    (hdetail : ∀ id, args.terminalDetail = (answer id).terminalDetail) :
    Obeys (watch cfg c) (Acted s₀) s
      (exceptException (do
        let id ← store (.finalizeActuation args)
        return answer id) (return indeterminate)) := by
  have hdone : ∀ r : Except Exc Nat, Acted s₀ (s.next (.store (.finalizeActuation args)) r)
      (.error .other) := fun r =>
    ⟨hcall, hholds, hstamped, fun _ _ _ => .inl rfl, fun _ h => by cases h⟩
  refine obeys_exceptException (R := fun s' r => ∃ r' : Except Exc Nat,
      s' = s.next (.store (.finalizeActuation args)) r' ∧ r = r'.map answer) ?_ ?_ ?_ ?_
  · rw [Obeys.bind_iff]
    refine Obeys.perform hallow fun r _ => ?_
    cases r with
    | error x => exact ⟨.error x, rfl, rfl⟩
    | ok id => exact ⟨.ok id, rfl, rfl⟩
  · rintro s' e ⟨r, rfl, hr⟩
    cases r with
    | error x => cases hr
    | ok id =>
        obtain ⟨h₁, h₂, h₃, h₄, -⟩ := hdone (.ok id)
        refine ⟨h₁, h₂, h₃, h₄, fun e' he => ?_⟩
        cases hr
        cases he
        exact .finalized args rfl (hstatus id) (hdetail id)
  · rintro s' x ⟨r, rfl, hr⟩ _
    cases r with
    | ok id => cases hr
    | error y =>
        obtain ⟨h₁, h₂, h₃, h₄, -⟩ := hdone (.error y)
        refine ⟨h₁, h₂, h₃, h₄, fun e' he => ?_⟩
        cases he
        exact .unfinalized args rfl rfl rfl
  · rintro s' x ⟨r, rfl, -⟩ _
    obtain ⟨h₁, h₂, h₃, h₄, -⟩ := hdone r
    exact ⟨h₁, h₂, h₃, h₄, fun e' he => by cases he⟩

theorem refuseClaimed_obeys {args : ClaimArgs} {claim : ActuationClaim} (claimTime : DateTime)
    (hown : s.store.Owns args claim) (hkey : a.event.idempotencyKey = some claim.idempotencyKey)
    (hprompt : s.call.isPrompt (cfg c.proc) = false) (hheld : s.holds .coordinator = true)
    (hfinal : s.store.finalized = none) (hlit : s.relay.lit = false)
    (hreturned : s.store.returned = none) :
    Obeys (watch cfg c) (Acted s) s (refuseClaimed a claimTime claim) := by
  refine finalize_obeys rfl rfl ⟨?_, hfinal, ⟨args, hown⟩, hkey, ?_, ?_, fun _ => ⟨rfl, rfl⟩, ?_⟩ ?_
    (fun _ => rfl) fun _ => rfl
  · rw [claimLock_of_prompt hprompt]
    exact hheld
  · simp [hlit]
  · simp [hreturned]
  · simp [hreturned]
  · simp [hlit]

/-! ## After the pulse -/

/-- The coordinator's own account of what `trigger` came to. -/
structure CameBack (cfg : Config) (a : ActuateArgs) (claim : ActuationClaim) (result : RelayResult)
    (s : Watch) : Prop where
  own : ∃ args, s.store.Owns args claim
  event : a.event.idempotencyKey = some claim.idempotencyKey
  prompt : s.call.isPrompt cfg = false
  coordinator : s.holds .coordinator = true
  finalized : s.store.finalized = none
  returned : s.store.returned = some result
  lit : s.relay.lit = true → s.store.inhibition = none ∧ result.reason ≠ "relay_latched"
  activated : result.activated = true → s.relay.lit = true ∧ result.activatedAt ≠ none
  dark : s.relay.lit = false → result.activatedAt = none
  stamped : s.store.stamped.isSome → activationAttempted s.store.inhibition result = true

/-- A pulse counts as an attempt. -/
theorem CameBack.attempted {cfg : Config} {claim : ActuationClaim} {result : RelayResult}
    (h : CameBack cfg a claim result s) (hlit : s.relay.lit = true) :
    activationAttempted s.store.inhibition result = true := by
  obtain ⟨hinh, hreason⟩ := h.lit hlit
  simp [activationAttempted, hinh, hreason]

theorem CameBack.quiet {cfg : Config} {claim : ActuationClaim} {result : RelayResult} {s' : Watch}
    (h : CameBack cfg a claim result s) (hq : Quiet s s') : CameBack cfg a claim result s' := by
  obtain ⟨e, he⟩ := hq.relay
  obtain ⟨h₁, h₂, h₃, h₄, h₅, h₆, h₇, h₈, h₉, h₁₀⟩ := h
  refine ⟨?_, h₂, ?_, ?_, ?_, ?_, ?_, ?_, ?_, ?_⟩ <;> simpa [hq.store, hq.call, hq.holds, he]

theorem finalizing_obeys {s₀ : Watch} {claim : ActuationClaim} {result : RelayResult}
    {inhibition : Option Inhibition} (h : CameBack (cfg c.proc) a claim result s)
    (hinh : s.store.inhibition = inhibition) (hcall : s.call = s₀.call)
    (hholds : s.holds = s₀.holds)
    (hstamped : s.relay.lit = true → s.store.stamped.isSome ∨ s.store.clockFailed = true)
    (decisionAt : Option DateTime) :
    Obeys (watch cfg c) (Acted s₀) s (finalize a claim result inhibition decisionAt) := by
  subst hinh
  refine finalize_obeys hcall hholds ⟨?_, h.finalized, h.own, h.event, fun hlit => ⟨?_, ?_⟩, ?_, ?_,
    ?_⟩ (fun hlit _ => hstamped hlit) (fun _ => rfl) fun _ => rfl
  · rw [claimLock_of_prompt h.prompt]
    exact h.coordinator
  · exact h.attempted hlit
  · cases hact : result.activated <;>
      simp [FinalizeArgs.status, finalArgs, finalStatus, (h.lit hlit).1, hact]
  · intro result' hr hact
    rw [h.returned] at hr
    cases hr
    obtain ⟨hlit, hat⟩ := h.activated hact
    refine ⟨?_, hact, hat⟩
    simp [FinalizeArgs.status, finalArgs, finalStatus, (h.lit hlit).1, hact]
  · intro hdark
    refine ⟨?_, h.dark hdark⟩
    show result.activated = false
    rw [← Bool.not_eq_true]
    exact fun hact => absurd (hdark.symm.trans (h.activated hact).1) Bool.false_ne_true
  · intro result' hr
    rw [h.returned] at hr
    cases hr
    exact ⟨rfl, h.stamped⟩

theorem conclude_obeys {s₀ : Watch} {claim : ActuationClaim} {result : RelayResult}
    {inhibition : Option Inhibition} (h : CameBack (cfg c.proc) a claim result s)
    (hinh : s.store.inhibition = inhibition) (hcall : s.call = s₀.call)
    (hholds : s.holds = s₀.holds)
    (hstamped : s.relay.lit = true → s.store.stamped.isSome ∨ s.store.clockFailed = true) :
    Obeys (watch cfg c) (Acted s₀) s (conclude a claim result inhibition) := by
  cases inhibition with
  | none => exact finalizing_obeys h hinh hcall hholds hstamped _
  | some i =>
      -- A check has objected, so that the output was not driven and nothing is owed.
      have hdark : s.relay.lit ≠ true := fun hlit => by simp [(h.lit hlit).1] at hinh
      refine obeys_quiet_bind (only_env _) (fun s' now hq => ?_) fun s' x hq => ?_
      · obtain ⟨e, he⟩ := hq.relay
        refine finalizing_obeys (h.quiet hq) ?_ (hq.call.trans hcall) (hq.holds.trans hholds) ?_ _
        · rw [hq.store]
          exact hinh
        · rw [he, hq.store]
          exact hstamped
      · obtain ⟨e, he⟩ := hq.relay
        have hdark' : s'.relay.lit ≠ true := by
          rw [he]
          exact hdark
        exact ⟨hq.call.trans hcall, hq.holds.trans hholds, fun hlit => absurd hlit hdark',
          fun _ _ hlit => absurd hlit hdark', fun _ h => by cases h⟩

theorem settle_obeys {s₀ : Watch} {claim : ActuationClaim} {result : RelayResult}
    (h : CameBack (cfg c.proc) a claim result s) (hcall : s.call = s₀.call)
    (hholds : s.holds = s₀.holds) :
    Obeys (watch cfg c) (Acted s₀) s (settle a claim result) := by
  rw [settle, Obeys.bind_iff]
  refine Obeys.perform trivial fun r hr => ?_
  cases (show r = .ok s.store.inhibition from hr.2)
  dsimp only
  cases hatt : activationAttempted s.store.inhibition result with
  | false =>
      refine conclude_obeys h rfl hcall hholds fun hlit => ?_
      rw [h.attempted hlit] at hatt
      cases hatt
  | true =>
      rw [if_pos rfl, Obeys.bind_iff]
      refine Obeys.perform h.coordinator fun r _ => ?_
      cases r with
      | error x =>
          exact ⟨hcall, hholds, fun _ _ => .inr rfl, fun _ _ _ => .inr rfl, fun _ h => by cases h⟩
      | ok now =>
          dsimp only
          rw [Obeys.bind_iff]
          refine Obeys.perform ⟨h.coordinator, ?_, rfl, h.finalized, ?_⟩ fun r hr => ?_
          · change s.store.returned.isSome = true
            rw [h.returned]
            rfl
          · exact ⟨_, claim, h.own.choose_spec⟩
          · obtain ⟨_, rfl⟩ := hr.1
            exact conclude_obeys ⟨h.own, h.event, h.prompt, h.coordinator, h.finalized, h.returned,
              h.lit, h.activated, h.dark, fun _ => hatt⟩ rfl hcall hholds fun _ => .inl rfl

/-! ## The whole of `actuate` -/

/-- A call that holds the claim of its key and may go on to the relay. -/
structure Granted (cfg : Config) (a : ActuateArgs) (key : String) (claimTime : DateTime) (now : ℚ)
    (bootId : Option String) (claim : ActuationClaim) (s : Watch) : Prop where
  acting : ∃ s₀ cutoff last, Acting cfg a key s₀ ∧
    (∀ value, last = some value → cfg.cooldownSeconds ≤ now - value) ∧
    s = { claimedWatch cfg a key claimTime cutoff now bootId claim s₀ with
      store := { (claimedWatch cfg a key claimTime cutoff now bootId claim s₀).store with
        lastAttempt := some last } }
  key : claim.idempotencyKey = key
  status : claim.status = .claimed

theorem activate_obeys {claimTime : DateTime} {now : ℚ} {bootId : Option String}
    {claim : ActuationClaim} (h : Granted (cfg c.proc) a key claimTime now bootId claim s) :
    Obeys (watch cfg c) (Acted s) s
      (activate c (cfg c.proc) a key claimTime now bootId claim) := by
  obtain ⟨⟨s₀, cutoff, last, h₀, hlast, rfl⟩, hkey, hstatus⟩ := h
  rw [activate, Obeys.bind_iff, Obeys.attempt_iff]
  refine Obeys.perform ?_ fun r _ => ?_
  · refine ⟨h₀.coordinator, h₀.fresh.marked, h₀.fresh.called, h₀.fresh.finalized, h₀.prompt,
      claimArgs _ a key claimTime cutoff now bootId, now, last, ⟨rfl, hstatus, hkey⟩, rfl, rfl, rfl,
      rfl, rfl, rfl, rfl, rfl, hlast⟩
  cases r with
  | error x =>
      dsimp only
      split
      · refine .of_returned rfl rfl h₀.fresh.returned fun e he => ?_
        cases he
        exact .inhibited rfl rfl
      · exact .raise_of_returned rfl rfl h₀.fresh.returned
  | ok u =>
      dsimp only
      rw [Obeys.bind_iff]
      refine Obeys.perform ⟨h₀.coordinator, h₀.fresh.called, h₀.fresh.finalized,
        ⟨_, rfl, hkey⟩, h₀.inhibit _ _ rfl (fun _ h => h) rfl rfl⟩ fun r hr => ?_
      cases (show r = .ok () from hr.1)
      dsimp only
      rw [Obeys.bind_iff]
      refine (RelayController.trigger_obeys _ ?_ ?_ ?_).mono fun s' r hret => ?_
      · intro callback hcb
        simp only [triggerArgs] at hcb
        split at hcb
        · cases hcb
          exact only_exceptException (only_env _) trivial
        · cases hcb
      · change Checks cfg c a.preActivationInhibit (a.preActivationInhibit.map checkInhibition)
        cases a.preActivationInhibit with
        | none => trivial
        | some inhibit => exact faithful_checkInhibition inhibit
      · exact ⟨⟨h₀.fresh.finalized, .inr ⟨h₀.coordinator, rfl, h₀.fresh.returned⟩⟩, h₀.trigger,
          h₀.boundary, h₀.inhibition, h₀.unlatched, rfl, h₀.lit, h₀.energised⟩
      · obtain ⟨hcall, hholds, -, hlit, hret⟩ := hret
        cases r with
        | error x =>
            obtain ⟨i, hstore⟩ := hret
            refine .raise_of_returned hcall hholds ?_
            rw [hstore]
            exact h₀.fresh.returned
        | ok result =>
            obtain ⟨⟨i, hstore⟩, hact, hreason, hdark⟩ := hret
            refine settle_obeys ⟨?_, h₀.event.trans (by rw [hkey]), ?_, ?_, ?_, ?_, ?_, hact, hdark,
              ?_⟩ hcall hholds
            · refine ⟨claimArgs (cfg c.proc) a key claimTime cutoff now bootId, ?_⟩
              rw [hstore]
              exact ⟨rfl, hstatus, hkey⟩
            · rw [hcall]
              exact h₀.prompt
            · rw [hholds]
              exact h₀.coordinator
            · rw [hstore]
              exact h₀.fresh.finalized
            · rw [hstore]
            · exact fun h => ⟨hlit h, hreason h⟩
            · intro hstamped
              rw [hstore] at hstamped
              have hnone : s₀.store.stamped = none := h₀.fresh.stamped
              exact absurd (show s₀.store.stamped.isSome = true from hstamped) (by simp [hnone])

theorem afterClaim_obeys {claimTime cutoff : DateTime} {now : ℚ} {bootId : Option String}
    {claim : ActuationClaim} (h : Acting (cfg c.proc) a key s)
    (hkey : claim.idempotencyKey = key) :
    Obeys (watch cfg c) (Acted s)
      (claimedWatch (cfg c.proc) a key claimTime cutoff now bootId claim s)
      (afterClaim c (cfg c.proc) a key claimTime now bootId claim) := by
  have htaken : ∀ e : ActuationExecution, claim.status ≠ .claimed → claim.status ≠ .cooldown →
      e.terminalStatus = "failed" → e.terminalDetail = some claim.status.text →
      Acted s (claimedWatch (cfg c.proc) a key claimTime cutoff now bootId claim s) (.ok e) := by
    intro e hc hd hs ht
    refine .of_returned rfl rfl h.fresh.returned fun e' he => ?_
    cases he
    exact .taken (claimArgs (cfg c.proc) a key claimTime cutoff now bootId) claim rfl hc hd hs ht
  unfold afterClaim
  cases hstatus : claim.status with
  | cooldown =>
      have hrefuse : Obeys (watch cfg c)
          (Acted (claimedWatch (cfg c.proc) a key claimTime cutoff now bootId claim s))
          (claimedWatch (cfg c.proc) a key claimTime cutoff now bootId claim s)
          (refuse a claimTime) :=
        refuse_obeys claimTime rfl hstatus h.event h.coordinator h.fresh.returned
      exact hrefuse.mono fun _ _ h => h.rebase rfl rfl
  | indeterminateClaim => exact htaken _ (by simp [hstatus]) (by simp [hstatus]) rfl (by rw [hstatus])
  | duplicateEvent => exact htaken _ (by simp [hstatus]) (by simp [hstatus]) rfl (by rw [hstatus])
  | claimed =>
      dsimp only
      rw [Obeys.bind_iff]
      refine Obeys.perform trivial fun r hr => ?_
      obtain ⟨last, rfl⟩ := hr.1
      have hgrant : (∀ value, last = some value → (cfg c.proc).cooldownSeconds ≤ now - value) →
          Granted (cfg c.proc) a key claimTime now bootId claim
            ((claimedWatch (cfg c.proc) a key claimTime cutoff now bootId claim s).next
              (.mem .lastAttempt) (.ok last)) := fun hlast =>
        ⟨⟨s, cutoff, last, h, hlast, rfl⟩, hkey, hstatus⟩
      cases last with
      | none =>
          exact (activate_obeys (hgrant fun _ h => by cases h)).mono fun _ _ h => h.rebase rfl rfl
      | some value =>
          dsimp only
          split
          · refine Obeys.mono (refuseClaimed_obeys claimTime ⟨rfl, hstatus, hkey⟩ ?_ h.prompt
              h.coordinator h.fresh.finalized h.lit h.fresh.returned) fun _ _ h => h.rebase rfl rfl
            rw [h.event, hkey]
          · next hlast =>
            refine (activate_obeys (hgrant fun v hv => ?_)).mono fun _ _ h => h.rebase rfl rfl
            cases hv
            exact not_lt.1 hlast

/-- What follows the look at the stored outcome. -/
theorem attempt_claim_obeys {claimTime : DateTime} (h : Acting (cfg c.proc) a key s)
    (hterminal : ∀ command, s.call.command? (cfg c.proc) = some command →
      s.store.terminal = some none) :
    Obeys (watch cfg c) (Acted s) s (do
      match ← (claim (cfg c.proc) a key claimTime).attempt with
      | .error x => if x.isException then return inhibitError else .raise x
      | .ok (now, bootId, claim) =>
          afterClaim c (cfg c.proc) a key claimTime now bootId claim) := by
  rw [Obeys.bind_iff, Obeys.attempt_iff]
  refine (claim_obeys h hterminal claimTime).mono fun s' r hr => ?_
  cases r with
  | error x =>
      obtain ⟨hcall, hholds, hreturned⟩ := hr
      dsimp only
      split
      · refine .of_returned hcall hholds hreturned fun e he => ?_
        cases he
        exact .inhibited rfl rfl
      · exact .raise_of_returned hcall hholds hreturned
  | ok v =>
      obtain ⟨now, bootId, claim⟩ := v
      obtain ⟨hkey, cutoff, rfl⟩ := hr
      exact afterClaim_obeys h hkey

theorem actuateLocked_obeys (h : Acting (cfg c.proc) a key s) :
    Obeys (watch cfg c) (Acted s) s (actuateLocked c (cfg c.proc) a key) := by
  rw [actuateLocked, Obeys.bind_iff]
  refine Obeys.perform (fun command hc => ⟨?_, h.command command hc⟩) fun r _ => ?_
  · rw [claimLock_of_prompt h.prompt]
    exact h.coordinator
  cases r with
  | error x => exact .raise_of_returned rfl rfl h.fresh.returned
  | ok terminal =>
      cases terminal with
      | some terminal =>
          refine Obeys.mono (replay_obeys rfl (fun id hid => ?_) h.fresh.returned) fun _ _ h =>
            h.rebase rfl rfl
          simp [Watch.next, StoreWatch.nextStore, hid]
      | none =>
          have hread : Acting (cfg c.proc) a key
              (s.next (.store (.terminalOutcome key)) (.ok none)) :=
            ⟨⟨h.fresh.claimed, h.fresh.marked, h.fresh.called, h.fresh.finalized, h.fresh.refused,
              h.fresh.returned, h.fresh.lastAttempt, h.fresh.monotonic, h.fresh.played,
              h.fresh.stamped⟩,
              h.inhibition, h.coordinator, h.trigger, h.boundary, h.unlatched, h.cleared, h.lit,
              h.energised, h.prompt, h.event, h.command, h.inhibit⟩
          dsimp only
          cases a.event.decisionAt with
          | some decisionAt =>
              exact (attempt_claim_obeys hread fun _ _ => rfl).mono fun _ _ h => h.rebase rfl rfl
          | none =>
              refine obeys_quiet_bind (only_env _) (fun s' now hq => ?_) fun s' x hq => ?_
              · refine (attempt_claim_obeys (hread.quiet hq) fun _ _ => ?_).mono fun _ _ h =>
                  h.rebase hq.call hq.holds
                rw [hq.store]
                rfl
              · refine .raise_of_returned hq.call hq.holds ?_
                rw [hq.store]
                exact h.fresh.returned

/-- A call that is about to enter `actuate`. -/
structure Enters (cfg : Config) (a : ActuateArgs) (s : Watch) : Prop where
  fresh : s.store.Fresh
  inhibition : s.store.inhibition = none
  coordinator : s.holds .coordinator = false
  trigger : s.holds .trigger = false
  boundary : s.holds .boundary = false
  unlatched : s.relay.unlatched = false
  cleared : s.relay.cleared = false
  lit : s.relay.lit = false
  energised : s.relay.energised = false
  prompt : s.call.isPrompt cfg = false
  command : ∀ command, s.call.command? cfg = some command → s.store.terminal = none ∧
    a.event.idempotencyKey = some (DirectCommandExecutor.claimKey command.idempotencyKey)
  inhibit : ∀ (s' : Watch) (m : MarkArgs), s'.call = s.call →
    (∀ value, s.started = some value → s'.started = some value) → s'.store.marked = some m →
    m.event = a.event → s'.InhibitOf cfg a.preActivationInhibit

/-- `actuate`, as its callers see it. -/
theorem actuate_obeys (h : Enters (cfg c.proc) a s) :
    Obeys (watch cfg c) (Acted s) s (actuate c (cfg c.proc) a) := by
  unfold actuate
  cases hkey : a.event.idempotencyKey with
  | none => exact .raise_of_returned rfl rfl h.fresh.returned
  | some key =>
      dsimp only
      split
      · exact .raise_of_returned rfl rfl h.fresh.returned
      · refine obeys_withLock ⟨h.coordinator, fun _ => ⟨(claimLock_of_prompt h.prompt).symm, h.fresh,
          fun command hc => (h.command command hc).1⟩⟩ (actuateLocked_obeys ?_)
          fun s' r hr => ?_
        · refine ⟨h.fresh, h.inhibition, by simp, ?_, ?_, h.unlatched, h.cleared, h.lit, h.energised,
            h.prompt, hkey, fun command hc => ?_, h.inhibit⟩
          · simpa [Function.update] using h.trigger
          · simpa [Function.update] using h.boundary
          · have hk := (h.command command hc).2
            rw [hkey] at hk
            exact Option.some.inj hk
        · refine ⟨⟨?_, fun h => (by cases h), fun _ => hr.stamped⟩, hr.call, ?_, hr.stamped,
            hr.finalized, hr.explained⟩
          · rw [hr.holds]
            simp
          · simp only [Watch.next, hr.holds, Function.update_idem]
            rw [← h.coordinator, Function.update_eq_self]

end ActuationCoordinator

end GateController
