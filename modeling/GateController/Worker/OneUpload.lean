import GateController.Runtime.Base
import GateController.Worker.HandlerDiscipline

/-!
# One upload, one audit event

An event is on account of an upload if its key is the digest of the upload's
content, or the digest of its name that stands in for a file which is gone.  The
first key is written at most once, since it is unique.  The second is written if
a call that has no key yet hashes the name of the removed file, which a late
notification brings about.

The invariant is that nobody holds the second key: not a burst that was named
after an upload, not the collector, not a call of the processor.
-/

namespace GateController

open Data Effects Proc GateProcessor

variable {cfg : WorkerConfig}

/-- A state of the worker and what has happened. -/
abbrev WorkerWorld (cfg : WorkerConfig) :=
  World WorkerEff WorkerEff.Ans Exc (WorkerState cfg) (WorkerCall cfg) Unit

abbrev WorkerLog (cfg : WorkerConfig) :=
  List (Event WorkerEff WorkerEff.Ans Exc (WorkerCall cfg) Unit)

/-- Whether the key of an event is that of the upload, or of its name. -/
def onAccount (path : String) (content : Content cfg.digests) (row : EventRow) : Bool :=
  row.idempotencyKey = some content.digest.text ∨
    row.idempotencyKey = some (cfg.digests.missing path).text

/-- The events on account of an upload. -/
def accounts (path : String) (content : Content cfg.digests) (s : WorkerState cfg) :
    List (Nat × EventRow) := s.gate.db.events.rows.filter fun p => onAccount path content p.2

/-- The worker after a start: the memory is empty. -/
def Worker.boot (cfg : WorkerConfig) (gate : State)
    (files : String → Option (Content cfg.digests)) : WorkerWorld cfg := World.init { gate, files }

/-- The file is there whenever a call that has yet to settle its key hashes it. -/
def Present (path : String) (w : WorkerWorld cfg) : Choice WorkerEnv (WorkerCall cfg) → Prop
  | .step c _ => ∀ k s, w.running c = some (.call (.gate (.env (.contentDigest path))) k) →
      ghost (fun _ => workerWatch cfg) c w.log = some s → s.key = none → (w.state.files path).isSome
  | _ => True

/-! ## Nobody holds the key of the name -/

/-- A key that is not the digest of the name. -/
def Foreign (cfg : WorkerConfig) (path : String) (key : Option Digest) : Prop :=
  key ≠ some (cfg.digests.missing path)

/-- What a thread holds is not the digest of the name. -/
structure WorkerWatch.Clean (cfg : WorkerConfig) (path : String) (w : WorkerWatch) : Prop where
  key : w.key ≠ some (cfg.digests.missing path).text
  taken : ∀ c, w.taken = some c → Foreign cfg path c.idempotencyKey
  burst : ∀ b, w.burst = some b → Foreign cfg path b.identity

/-- What the threads share is not the digest of the name. -/
structure WorkerState.Clean (path : String) (s : WorkerState cfg) : Prop where
  rows : ∀ i row, s.gate.db.events.find? i = some row →
    row.idempotencyKey ≠ some (cfg.digests.missing path).text
  collector : Foreign cfg path s.collector.idempotencyKey
  queue : ∀ b ∈ s.queue, Foreign cfg path b.identity

/-- The invariant. -/
def Clean (path : String) (s : WorkerState cfg) (log : WorkerLog cfg) : Prop :=
  s.Clean path ∧ Ever (fun _ => workerWatch cfg) (fun _ w => w.Clean cfg path) log

theorem Digest.eq_of_text {a b : Digest} (h : a.text = b.text) : a = b := by
  cases a
  cases b
  cases h
  rfl

theorem Foreign.text {path : String} {key : Option Digest} (h : Foreign cfg path key) :
    key.map Digest.text ≠ some (cfg.digests.missing path).text := by
  intro heq
  obtain ⟨k, rfl, htext⟩ := Option.map_eq_some_iff.1 heq
  exact h (congrArg some (Digest.eq_of_text htext))

/-- Only the file's own name has the digest of its name, and only if the file is gone. -/
theorem contentDigest_foreign {s : WorkerState cfg} {path q : String}
    (h : q = path → (s.files path).isSome) :
    Foreign cfg path (some (Worker.contentDigest s q)) := by
  intro heq
  have hdigest := Option.some.inj heq
  unfold Worker.contentDigest at hdigest
  cases hfile : s.files q with
  | some content =>
      rw [hfile] at hdigest
      exact content.fresh path hdigest
  | none =>
      rw [hfile] at hdigest
      have hname := cfg.digests.injective hdigest
      subst hname
      rw [hfile] at h
      exact absurd (h rfl) (by simp)

section Clean

variable {path : String} {s s' : WorkerState cfg} {w : WorkerWatch} {c : CallId} {env : WorkerEnv}

theorem exec_gate_eq {e : Eff} (he : ∀ q, e ≠ .env (.contentDigest q)) :
    Worker.exec c env s (.gate e) =
      (e.exec c env.gate s.gate).map fun r => (r.1, { s with gate := r.2 }) := by
  cases e with
  | env op => cases op <;> first | rfl | exact absurd rfl (he _)
  | _ => rfl

/-- An operation of the processor reads a file, or it is one of the gate's machine. -/
theorem exec_gate {e : Eff} {r : Except Exc e.Ans}
    (h : Worker.exec c env s (.gate e) = some (r, s')) :
    s' = s ∨ ∃ gate, e.exec c env.gate s.gate = some (r, gate) ∧ s' = { s with gate } := by
  by_cases he : ∃ q, e = .env (.contentDigest q)
  · obtain ⟨q, rfl⟩ := he
    cases h
    exact .inl rfl
  · rw [exec_gate_eq fun q hq => he ⟨q, hq⟩] at h
    obtain ⟨⟨r', gate⟩, hexec, heq⟩ := Option.map_eq_some_iff.1 h
    cases heq
    exact .inr ⟨gate, hexec, rfl⟩

/-- What an operation of the processor adds to the audit log. -/
theorem exec_gate_rows {e : Eff} {r : Except Exc e.Ans} {key : String}
    (hexec : Worker.exec c env s (.gate e) = some (r, s')) (hwrites : e.WritesUnder key)
    {i : Nat} {row : EventRow} (hrow : s'.gate.db.events.find? i = some row) :
    s.gate.db.events.find? i = some row ∨ row.idempotencyKey = some key := by
  rcases exec_gate hexec with rfl | ⟨gate, hgate, rfl⟩
  · exact .inl hrow
  · cases e with
    | store op =>
        cases hgate
        exact hwrites.row hrow
    | _ =>
        have hdb := (exec_unmoved hgate).db fun op => by nofun
        rw [hdb] at hrow
        exact .inl hrow

theorem WorkerState.Clean.gate {e : Eff} {r : Except Exc e.Ans} (h : s.Clean path)
    (hw : w.Clean cfg path) (hallow : w.allow (.gate e))
    (hexec : Worker.exec c env s (.gate e) = some (r, s')) : s'.Clean path := by
  have hsame : s'.collector = s.collector ∧ s'.queue = s.queue := by
    rcases exec_gate hexec with rfl | ⟨gate, -, rfl⟩ <;> exact ⟨rfl, rfl⟩
  refine ⟨fun i row hrow => ?_, hsame.1 ▸ h.collector, hsame.2 ▸ h.queue⟩
  rcases hallow with hempty | ⟨key, hkey, hwrites⟩
  · rcases exec_gate_rows hexec hempty hrow with hold | hnew
    · exact h.rows i row hold
    · rw [hnew]
      exact fun heq => cfg.digests.emptyBurst path (Option.some.inj heq).symm
  · rcases exec_gate_rows hexec hwrites hrow with hold | hnew
    · exact h.rows i row hold
    · rw [hnew, ← hkey]
      exact hw.key

/-- An operation keeps what the threads share and what the thread holds. -/
theorem Clean.exec {e : WorkerEff} {r : Except Exc e.Ans} (h : s.Clean path)
    (hw : w.Clean cfg path) (hallow : w.allow e)
    (hpresent : e = .gate (.env (.contentDigest path)) → w.key = none → (s.files path).isSome)
    (hexec : Worker.exec c env s e = some (r, s')) :
    WorkerWatch.expect e r ∧ s'.Clean path ∧ (w.next e r).Clean cfg path := by
  cases e with
  | gate e =>
      have hclean := h.gate hw hallow hexec
      by_cases he : ∃ q, e = .env (.contentDigest q)
      · obtain ⟨q, rfl⟩ := he
        cases hexec
        refine ⟨⟨_, rfl⟩, hclean, { hw with key := ?_ }⟩
        show some (w.key.getD (Worker.contentDigest s q).text) ≠ _
        cases hkey : w.key with
        | some key => exact hkey ▸ hw.key
        | none =>
            refine (contentDigest_foreign (s := s) ?_).text
            rintro rfl
            exact hpresent rfl hkey
      · have hnext : w.next (.gate e) r = w := by
          cases e with
          | env op => cases op <;> first | rfl | exact absurd ⟨_, rfl⟩ he
          | _ => rfl
        have hexpect : WorkerWatch.expect (.gate e) r := by
          cases e with
          | env op => cases op <;> first | trivial | exact absurd ⟨_, rfl⟩ he
          | _ => trivial
        rw [hnext]
        exact ⟨hexpect, hclean, hw⟩
  | enter key =>
      cases hexec
      refine ⟨trivial, h, { hw with key := ?_ }⟩
      rcases hallow with rfl | ⟨b, hb, rfl⟩
      · nofun
      · exact (hw.burst b hb).text
  | add q receivedAt =>
      cases hexec
      refine ⟨trivial, { h with collector := ?_ }, hw⟩
      rcases Gathering.add_key s.collector (Worker.arrival s env q receivedAt) with hkey | hkey
      · exact fun heq => h.collector (hkey.symm.trans heq)
      · intro heq
        obtain ⟨content, -, hdigest⟩ := Option.map_eq_some_iff.1 (hkey.symm.trans heq)
        exact content.fresh path hdigest
  | take =>
      simp only [Worker.exec] at hexec
      split at hexec
      · cases hexec
        refine ⟨trivial, { h with collector := nofun }, { hw with taken := ?_ }⟩
        rintro _ ⟨⟩
        exact h.collector
      · cases hexec
        exact ⟨trivial, h, hw⟩
  | put b =>
      have hb : Foreign cfg path b.identity := by
        rcases hallow with hnone | ⟨c, hc, hid⟩
        · rw [hnone]
          nofun
        · rw [hid]
          exact hw.taken c hc
      simp only [Worker.exec, Worker.putBurst, Option.some.injEq] at hexec
      split at hexec
      · cases hexec
        refine ⟨trivial, { h with queue := fun b' hb' => ?_ }, ?_⟩
        · rcases List.mem_append.1 hb' with hold | hnew
          · exact h.queue b' (List.mem_of_mem_tail hold)
          · exact List.mem_singleton.1 hnew ▸ hb
        · cases hqueue : s.queue with
          | nil => exact { hw with }
          | cons first rest =>
              refine { hw with burst := ?_ }
              rintro _ ⟨⟩
              exact h.queue first (by simp [hqueue])
      · cases hexec
        refine ⟨trivial, { h with queue := fun b' hb' => ?_ }, { hw with }⟩
        rcases List.mem_append.1 hb' with hold | hnew
        · exact h.queue b' hold
        · exact List.mem_singleton.1 hnew ▸ hb
  | get =>
      simp only [Worker.exec] at hexec
      split at hexec
      · cases hexec
      next b rest hqueue =>
        cases hexec
        refine ⟨trivial, { h with queue := fun b' hb' => h.queue b' (by simp [hqueue, hb']) },
          { hw with burst := ?_ }⟩
        rintro _ ⟨⟩
        exact h.queue b (by simp [hqueue])
  | selectHot receivedAt =>
      cases hexec
      exact ⟨trivial, h, hw⟩
  | _ =>
      cases hexec
      exact ⟨trivial, { h with }, hw⟩

theorem clean_start (path : String) : ({} : WorkerWatch).Clean cfg path :=
  ⟨nofun, nofun, nofun⟩

/-- The one obligation per kind of event. -/
theorem clean_invariant (path : String) :
    Invariant (worker cfg) (fun _ => workerWatch cfg) (fun _ _ _ => True) (Present path)
      (Clean path) where
  obeys w c call s' _ _ _ := Worker.program_obeys c call
  began w c call s' _ h _ _ haccept := by
    refine ⟨?_, h.2.began (clean_start path) fun _ _ _ _ hd => hd⟩
    cases call <;> cases haccept <;> exact { h.1 with }
  did w c env e k s r s' _ h hok hrun _ hghost hallow hexec := by
    have hpresent : e = .gate (.env (.contentDigest path)) → s.key = none →
        (w.state.files path).isSome := by
      rintro rfl hkey
      exact hok _ s hrun hghost hkey
    obtain ⟨hexpect, hstate, hwatch⟩ := Clean.exec h.1 (h.2 c s hghost) hallow hpresent hexec
    exact ⟨hexpect, hstate, h.2.did hghost hwatch fun _ _ _ _ hd => hd⟩
  ended w c s r _ h _ _ _ := h
  crashed w p env _ h _ := by
    refine ⟨⟨fun i row hrow => h.1.rows i row ?_, nofun, nofun⟩, h.2⟩
    rw [← crash_db p env.gate w.state.gate]
    exact hrow

end Clean

/-! ## The audit log -/

theorem exec_events {s s' : WorkerState cfg} {c : CallId} {env : WorkerEnv} {e : WorkerEff}
    {r : Except Exc e.Ans} (hexec : Worker.exec c env s e = some (r, s')) :
    s.gate.db.events.Extends s'.gate.db.events := by
  cases e with
  | gate e =>
      rcases exec_gate hexec with rfl | ⟨gate, hgate, rfl⟩
      · exact .refl _
      · cases e with
        | store op =>
            cases hgate
            exact StoreOp.run_events rfl
        | _ =>
            have hdb := (exec_unmoved hgate).db fun op => by nofun
            show Table.Extends _ gate.db.events
            rw [hdb]
            exact .refl _
  | take =>
      simp only [Worker.exec] at hexec
      split at hexec <;> cases hexec <;> exact .refl _
  | get =>
      simp only [Worker.exec] at hexec
      split at hexec <;> cases hexec
      exact .refl _
  | _ =>
      cases hexec
      exact .refl _

/-- Nothing is taken out of the audit log. -/
theorem events_extend_step (w : WorkerWorld cfg) (ch : Choice WorkerEnv (WorkerCall cfg)) :
    w.state.gate.db.events.Extends ((worker cfg).step w ch).state.gate.db.events := by
  have hmove := Machine.step_move (M := worker cfg) w ch
  generalize ((worker cfg).step w ch).state = s' at hmove ⊢
  cases hmove with
  | stay => exact .refl _
  | begin c call h => cases call <;> cases h <;> exact .refl _
  | crash p env =>
      show Table.Extends _ (w.state.gate.crash p env.gate).db.events
      rw [crash_db]
      exact .refl _
  | did c env hrun hexec => exact exec_events hexec

theorem events_extend_run (w : WorkerWorld cfg) (l : List (Choice WorkerEnv (WorkerCall cfg))) :
    w.state.gate.db.events.Extends ((worker cfg).run w l).state.gate.db.events := by
  induction l generalizing w with
  | nil => exact .refl _
  | cons ch rest ih => exact (events_extend_step w ch).trans (ih _)

theorem mem_accounts {path : String} {content : Content cfg.digests} {s : WorkerState cfg}
    {p : Nat × EventRow} : p ∈ accounts path content s ↔
      s.gate.db.events.find? p.1 = some p.2 ∧ onAccount path content p.2 = true := by
  rw [accounts, List.mem_filter, Table.find?_eq_some_iff]

/-- As long as nothing is recorded under the digest of the name, there is one event. -/
theorem WorkerState.Clean.accounts_le {path : String} {s : WorkerState cfg} (h : s.Clean path)
    (content : Content cfg.digests) : (accounts path content s).length ≤ 1 := by
  have hids : ((accounts path content s).map Prod.fst).Nodup :=
    s.gate.db.events.ids.sublist (List.filter_sublist.map _)
  have hkey : ∀ p ∈ accounts path content s, p.2.idempotencyKey = some content.digest.text := by
    intro p hp
    obtain ⟨hfind, hon⟩ := mem_accounts.1 hp
    rcases of_decide_eq_true hon with hkey | hkey
    · exact hkey
    · exact absurd hkey (h.rows p.1 p.2 hfind)
  match hlist : accounts path content s with
  | [] => exact Nat.zero_le _
  | [p] => exact le_rfl
  | p :: q :: rest =>
      rw [hlist] at hids hkey
      have hp : p ∈ accounts path content s := by rw [hlist]; simp
      have hq : q ∈ accounts path content s := by rw [hlist]; simp
      have heq := s.gate.db.events.keys p (List.mem_filter.1 hp).1 q (List.mem_filter.1 hq).1
        content.digest.text (hkey p (by simp)) (hkey q (by simp))
      simp [heq] at hids

/-- In every run in which the file is there whenever a call that has no key yet
hashes it, there is at most one event on account of an upload.  Once there is one,
nothing more is recorded, whatever notifications are still to come. -/
theorem upload_recorded_once (gate : State) (files : String → Option (Content cfg.digests))
    (path : String) (content : Content cfg.digests)
    (hnew : ∀ i row, gate.db.events.find? i = some row →
      row.idempotencyKey ≠ some (cfg.digests.missing path).text)
    (before after : List (Choice WorkerEnv (WorkerCall cfg)))
    (hpresent : (worker cfg).Admits (Present path) (Worker.boot cfg gate files) (before ++ after)) :
    (accounts path content ((worker cfg).run (Worker.boot cfg gate files) before).state).length ≤ 1 ∧
      (accounts path content ((worker cfg).run (Worker.boot cfg gate files) before).state ≠ [] →
        accounts path content
            ((worker cfg).run (Worker.boot cfg gate files) (before ++ after)).state =
          accounts path content ((worker cfg).run (Worker.boot cfg gate files) before).state) := by
  have hstart : Clean path (Worker.boot cfg gate files).state (Worker.boot cfg gate files).log := by
    refine ⟨⟨hnew, ?_, ?_⟩, ?_⟩
    · intro h
      cases h
    · intro b h
      cases h
    · intro d w h
      cases h
  have hclean : ∀ l, (worker cfg).Admits (Present path) (Worker.boot cfg gate files) l →
      (accounts path content ((worker cfg).run (Worker.boot cfg gate files) l).state).length ≤ 1 :=
    fun l hl =>
      (((clean_invariant path).run (Sound.init _ _ _) hstart hl).2.1).accounts_le content
  have hbefore := hclean before (Machine.admits_append.1 hpresent).1
  refine ⟨hbefore, fun hne => ?_⟩
  have hboth := hclean (before ++ after) hpresent
  have hextends := events_extend_run ((worker cfg).run (Worker.boot cfg gate files) before) after
  rw [← Machine.run_append] at hextends
  -- The one event is still there, and there is no room for another.
  obtain ⟨p, rest, hp⟩ := List.exists_cons_of_ne_nil hne
  have hmem := mem_accounts.1 (hp ▸ List.mem_cons_self :
    p ∈ accounts path content ((worker cfg).run (Worker.boot cfg gate files) before).state)
  have hmem' := mem_accounts.2 ⟨hextends p.1 p.2 hmem.1, hmem.2⟩
  rw [hp] at hbefore ⊢
  obtain rfl : rest = [] := by
    rw [List.length_cons] at hbefore
    exact List.length_eq_zero_iff.1 (by omega)
  match hlist : accounts path content
      ((worker cfg).run (Worker.boot cfg gate files) (before ++ after)).state with
  | [] =>
      rw [hlist] at hmem'
      cases hmem'
  | [q] =>
      rw [hlist] at hmem'
      rw [List.mem_singleton.1 hmem']
  | q :: q' :: rest =>
      rw [hlist, List.length_cons, List.length_cons] at hboth
      omega

/-- `Present`, computed. -/
def presentCheck (path : String) (w : WorkerWorld cfg) : Choice WorkerEnv (WorkerCall cfg) → Bool
  | .step c _ =>
      match w.running c with
      | some (.call (.gate (.env (.contentDigest q))) _) =>
          q ≠ path || (w.state.files path).isSome ||
            (ghost (fun _ => workerWatch cfg) c w.log).all fun s => s.key.isSome
      | _ => true
  | _ => true

/-- `presentCheck`, along a run. -/
def presentChecks (path : String) (w : WorkerWorld cfg) :
    List (Choice WorkerEnv (WorkerCall cfg)) → Bool
  | [] => true
  | ch :: rest => presentCheck path w ch && presentChecks path ((worker cfg).step w ch) rest

theorem present_of_check {path : String} {w : WorkerWorld cfg}
    {ch : Choice WorkerEnv (WorkerCall cfg)} (h : presentCheck path w ch = true) :
    Present path w ch := by
  cases ch with
  | step c env =>
      intro k s hrun hghost hkey
      simpa [presentCheck, hrun, hghost, hkey] using h
  | _ => trivial

theorem admits_of_checks {path : String} {l : List (Choice WorkerEnv (WorkerCall cfg))} :
    ∀ {w : WorkerWorld cfg}, presentChecks path w l = true →
      (worker cfg).Admits (Present path) w l := by
  induction l with
  | nil => exact fun _ => trivial
  | cons ch rest ih =>
      intro w h
      obtain ⟨hfirst, hrest⟩ := Bool.and_eq_true_iff.1 h
      exact ⟨present_of_check hfirst, ih hrest⟩

/-! ### A notification that comes too late -/

namespace Late

theorem text_injective : Function.Injective fun path : String => "missing:" ++ path := by
  intro a b h
  have hlist := congrArg String.toList h
  simp only [String.toList_append] at hlist
  exact String.toList_inj.1 (List.append_cancel_left hlist)

theorem text_ne {text : String} (h : text.toList.head? ≠ some 'm') (path : String) :
    "missing:" ++ path ≠ text := by
  rintro rfl
  exact h (by rw [String.toList_append]; rfl)

/-- Digests that can be read. -/
def names : NameDigests where
  missing path := ⟨"missing:" ++ path, text_ne (by decide) path⟩
  injective a b h := text_injective (congrArg Digest.text h)
  emptyBurst path := text_ne (by decide) path

def config : WorkerConfig := { digests := names, gate := { outboxEnabled := false } }

/-- A complete JPEG. -/
def jpeg : Content config.digests where
  digest := ⟨"sha256", by decide⟩
  size := 1
  readable := true
  fresh path h := text_ne (by decide) path (congrArg Digest.text h).symm

/-- The outside at a time: nobody is authorised and there is no plate in sight. -/
def surroundings (clock : ℚ) : WorkerEnv where
  clock := clock
  later := clock
  gate := { answer := fun op =>
    match op with
    | .clock => .ok datetimeMin
    | .decisionClock => .ok clock
    | .authorised => .ok []
    | .recognise _ => .ok (.observed none 0)
    | .finishTrace => .ok none
    | _ => .error .other }

/-- A call from beginning to end. -/
def whole (serial : Nat) (call : WorkerCall config) (clock : ℚ) :
    List (Choice WorkerEnv (WorkerCall config)) :=
  .begin ⟨0, serial⟩ call :: List.replicate 40 (.step ⟨0, serial⟩ (surroundings clock))

/-- The upload is notified, collected, flushed, processed and removed. -/
def uploaded : List (Choice WorkerEnv (WorkerCall config)) :=
  whole 1 (.upload "a.jpg" jpeg) 0 ++ whole 2 (.notify (.created "a.jpg" false)) 0 ++
    whole 3 .poll 0 ++ whole 4 .poll 1 ++ whole 5 .consume 1

/-- Then comes its other notification. -/
def notifiedAgain : List (Choice WorkerEnv (WorkerCall config)) :=
  whole 6 (.notify (.closed "a.jpg" false)) 2 ++ whole 7 .poll 2

def init : WorkerWorld config := Worker.boot config { db := Db.fresh } fun _ => none

/-- The second notification finds the file gone, and its rejection is recorded under
the digest of the name: two events for one upload. -/
theorem late_notification_recorded :
    (accounts "a.jpg" jpeg ((worker config).run init uploaded).state).length = 1 ∧
      (((worker config).run init uploaded).state.files "a.jpg").isNone = true ∧
      (accounts "a.jpg" jpeg ((worker config).run init (uploaded ++ notifiedAgain)).state).length =
        2 := by
  decide +kernel

/-- With the upload processed and the second notification not examined yet. -/
theorem upload_recorded_once_uploaded :
    (accounts "a.jpg" jpeg ((worker config).run init uploaded).state).length ≤ 1 ∧
      (accounts "a.jpg" jpeg ((worker config).run init uploaded).state ≠ [] →
        accounts "a.jpg" jpeg ((worker config).run init
            (uploaded ++ whole 6 (.notify (.closed "a.jpg" false)) 2)).state =
          accounts "a.jpg" jpeg ((worker config).run init uploaded).state) :=
  upload_recorded_once { db := Db.fresh } (fun _ => none) "a.jpg" jpeg (fun _ _ h => by cases h)
    uploaded (whole 6 (.notify (.closed "a.jpg" false)) 2)
    (admits_of_checks (by decide +kernel))

end Late

end GateController
