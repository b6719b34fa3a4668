import GateController.Worker.OneUpload

/-!
# The frame in front

The first upload of a window gives the burst its identity, and the collector
wants it in front when the burst is flushed.  What it takes for the first upload
is the first pending path, and a path that is added again moves to the end.  So
the frame in front is the one whose last addition lies furthest back, and a late
notification of the first upload puts a hot frame there.

The window is read off the run: `gathering` follows every operation on the
collector, whichever thread makes it.
-/

namespace GateController

open Data Effects Proc GateProcessor

variable {cfg : WorkerConfig}

namespace Worker

/-! ## The window of a run -/

/-- What an operation does to the window. -/
def gatherOp (env : WorkerEnv) (s : WorkerState cfg) (g : Gathering) : WorkerEff → Gathering
  | .add path receivedAt => g.step cfg.collector (.add (arrival s env path receivedAt))
  | .take => g.step cfg.collector (.flushDue env.clock env.wall id)
  | _ => g

/-- What a choice of the scheduler does to the window. -/
def gatherStep (w : WorkerWorld cfg) (g : Gathering) :
    Choice WorkerEnv (WorkerCall cfg) → Gathering
  | .begin _ _ => g
  | .step c env =>
      match w.running c with
      | some (.call e _) => gatherOp env w.state g e
      | _ => g
  | .crash _ _ => {}

/-- The collector at the end of a run, with the uploads of its window. -/
def gathering (w : WorkerWorld cfg) (g : Gathering) :
    List (Choice WorkerEnv (WorkerCall cfg)) → Gathering
  | [] => g
  | ch :: rest => gathering ((worker cfg).step w ch) (gatherStep w g ch) rest

/-- The uploads of the window in which a run from the start ends. -/
def window (gate : State) (files : String → Option (Content cfg.digests))
    (l : List (Choice WorkerEnv (WorkerCall cfg))) : List Arrival :=
  (gathering (boot cfg gate files) {} l).arrivals

/-- The gathering is the one of the worker's collector. -/
structure Follows (g : Gathering) (w : WorkerWorld cfg) : Prop where
  collector : g.collector = w.state.collector
  holds : g.Holds cfg.collector

/-- One operation. -/
theorem exec_gather {c : CallId} {env : WorkerEnv} {s s' : WorkerState cfg} {e : WorkerEff}
    {r : Except Exc e.Ans} {g : Gathering} (hcollector : g.collector = s.collector)
    (hholds : g.Holds cfg.collector) (hexec : Worker.exec c env s e = some (r, s')) :
    (gatherOp env s g e).collector = s'.collector ∧ (gatherOp env s g e).Holds cfg.collector := by
  cases e with
  | gate e => rcases exec_gate hexec with rfl | ⟨gate, -, rfl⟩ <;> exact ⟨hcollector, hholds⟩
  | add path receivedAt =>
      cases hexec
      refine ⟨?_, hholds.add _⟩
      simp only [gatherOp, Gathering.step, hcollector]
  | take =>
      refine ⟨?_, hholds.flushDue _ _ _⟩
      simp only [gatherOp, Gathering.step, BurstCollector.flushDue, hcollector]
      simp only [Worker.exec] at hexec
      split at hexec
      next hdue =>
        cases hexec
        rw [if_pos hdue]
      next hdue =>
        cases hexec
        rw [if_neg hdue]
  | get =>
      simp only [Worker.exec] at hexec
      split at hexec <;> cases hexec
      exact ⟨hcollector, hholds⟩
  | _ =>
      cases hexec
      exact ⟨hcollector, hholds⟩

/-- One choice. -/
theorem Follows.step {g : Gathering} {w : WorkerWorld cfg} (h : Follows g w)
    (ch : Choice WorkerEnv (WorkerCall cfg)) :
    Follows (gatherStep w g ch) ((worker cfg).step w ch) := by
  cases ch with
  | crash p env => exact ⟨rfl, Gathering.holds_empty⟩
  | begin c call =>
      simp only [gatherStep, Machine.step]
      split
      · exact h
      · split
        · exact h
        next s' haccept =>
          have hsame : s'.collector = w.state.collector := by cases call <;> cases haccept <;> rfl
          exact ⟨h.collector.trans hsame.symm, h.holds⟩
  | step c env =>
      simp only [gatherStep, Machine.step]
      cases w.running c with
      | none => exact h
      | some p =>
          cases p with
          | ret a => exact ⟨h.collector, h.holds⟩
          | raise x => exact ⟨h.collector, h.holds⟩
          | call e k =>
              simp only [Machine.advance]
              split
              next hexec =>
                -- An operation that has to wait is `get`.
                have hwait : gatherOp env w.state g e = g := by
                  cases e with
                  | add path receivedAt => cases hexec
                  | take =>
                      replace hexec : Worker.exec c env w.state .take = none := hexec
                      simp only [Worker.exec] at hexec
                      split at hexec <;> cases hexec
                  | _ => rfl
                rw [hwait]
                exact h
              next r s' hexec =>
                obtain ⟨hcollector, hholds⟩ := exec_gather h.collector h.holds hexec
                exact ⟨hcollector, hholds⟩

theorem Follows.run {g : Gathering} {w : WorkerWorld cfg} (h : Follows g w)
    (l : List (Choice WorkerEnv (WorkerCall cfg))) :
    Follows (gathering w g l) ((worker cfg).run w l) := by
  induction l generalizing g w with
  | nil => exact h
  | cons ch rest ih => exact ih (h.step ch)

/-- At the end of every run the collector is what the window makes of it. -/
theorem follows_window (gate : State) (files : String → Option (Content cfg.digests))
    (l : List (Choice WorkerEnv (WorkerCall cfg))) :
    Follows (gathering (boot cfg gate files) {} l) ((worker cfg).run (boot cfg gate files) l) :=
  Follows.run ⟨rfl, Gathering.holds_empty⟩ l

/-! ## The burst that is emitted -/

theorem only_lift {α : Type} (p : Proc α) : (lift p).Only fun e => ∃ g, e = .gate g := by
  induction p with
  | ret a => trivial
  | raise x => trivial
  | call e k ih => exact ⟨⟨e, rfl⟩, ih⟩

theorem only_removeUploads (paths : List String) :
    (removeUploads paths).Only fun e => ∃ path, e = .remove path := by
  induction paths with
  | nil => trivial
  | cons path rest ih => exact Prog.Only.bind (Prog.Only.perform_iff.2 ⟨path, rfl⟩) fun _ => ih

/-- A hand-over puts one burst into the queue. -/
theorem enqueue_puts {b b' : Burst} {t : List (Σ e, Except Exc (WorkerEff.Ans e))}
    {r : Except Exc Unit} {x : Except Exc (Option Burst)} (h : (enqueue cfg b).Yields t r)
    (hput : ⟨.put b', x⟩ ∈ t) : b' = b := by
  have hrest : ∀ dropped : Burst, ((do
      op (.enter none)
      let _ ← lift (reportDropped cfg.gate dropped "queue_coalesced")
      return () : WorkerProg Unit).finally_ (removeUploads dropped.paths)).Only
        fun e => ∀ b, e ≠ .put b := by
    intro dropped
    have hlift := (only_lift (reportDropped cfg.gate dropped "queue_coalesced")).mono
      (G := fun e => ∀ b, e ≠ .put b) fun e ⟨g, hg⟩ b hb => by cases hg.symm.trans hb
    have hremove := (only_removeUploads dropped.paths).mono
      (G := fun e => ∀ b, e ≠ .put b) fun e ⟨path, hp⟩ b hb => by cases hp.symm.trans hb
    refine Prog.Only.bind (Prog.Only.attempt ?_) fun r => ?_
    · exact Prog.Only.bind (Prog.Only.perform_iff.2 fun b h => by cases h) fun _ =>
        Prog.Only.bind hlift fun _ => trivial
    · exact Prog.Only.bind hremove fun _ => by simp
  cases h with
  | call _ _ a h =>
      rcases List.mem_cons.1 hput with heq | hmem
      · cases heq
        rfl
      · match a with
        | .error y =>
            obtain ⟨rfl, -⟩ := Prog.yields_raise_iff.1 h
            cases hmem
        | .ok none =>
            obtain ⟨rfl, -⟩ := Prog.yields_ret_iff.1 h
            cases hmem
        | .ok (some dropped) => exact absurd rfl (Prog.Only.of_yields (hrest dropped) h _ hmem b')

/-- The burst that a flush puts into the queue. -/
theorem flushDue_puts {c : BurstCollector} {now : ℚ} {wall : DateTime} {best : List String}
    {t : List (Σ e, Except Exc (WorkerEff.Ans e))} {r : Except Exc Unit} {b : Burst}
    {x : Except Exc (Option Burst)}
    (h : (flushDue cfg).Yields
      (⟨.take, .ok (some (c, now, wall))⟩ :: ⟨.rank c.pending, .ok best⟩ :: t) r)
    (hput : ⟨.put b, x⟩ ∈ t) :
    b = c.burst cfg.collector now wall (BurstCollector.order cfg.collector c.pending best) := by
  cases h with
  | call _ _ _ h =>
      cases h with
      | call _ _ _ h =>
          replace h : (removeUploads (c.pending.filter
                (· ∉ BurstCollector.order cfg.collector c.pending best)) >>= fun _ =>
              if BurstCollector.order cfg.collector c.pending best = [] then return ()
              else enqueue cfg (c.burst cfg.collector now wall
                (BurstCollector.order cfg.collector c.pending best))).Yields t r := h
          rcases h.bind_inv with ⟨t₁, t₂, u, h₁, h₂, rfl⟩ | ⟨y, h₁, -⟩
          · rcases List.mem_append.1 hput with hmem | hmem
            · obtain ⟨path, heq⟩ := Prog.Only.of_yields (only_removeUploads _) h₁ _ hmem
              cases heq
            · split at h₂
              · obtain ⟨rfl, -⟩ := Prog.yields_ret_iff.1 h₂
                cases hmem
              · exact enqueue_puts h₂ hmem
          · obtain ⟨path, heq⟩ := Prog.Only.of_yields (only_removeUploads _) h₁ _ hput
            cases heq

/-- A flush whose ranking keeps everything. -/
theorem yields_flushDue {c : BurstCollector} {now : ℚ} {wall : DateTime} {best : List String}
    (hkept : c.pending.filter (· ∉ BurstCollector.order cfg.collector c.pending best) = [])
    (hne : BurstCollector.order cfg.collector c.pending best ≠ []) :
    (flushDue cfg).Yields [⟨.take, .ok (some (c, now, wall))⟩, ⟨.rank c.pending, .ok best⟩,
      ⟨.put (c.burst cfg.collector now wall
        (BurstCollector.order cfg.collector c.pending best)), .ok none⟩] (.ok ()) := by
  refine .call _ _ _ (.call _ _ _ ?_)
  show (removeUploads (c.pending.filter
      (· ∉ BurstCollector.order cfg.collector c.pending best)) >>= fun _ =>
    if BurstCollector.order cfg.collector c.pending best = [] then return ()
    else enqueue cfg (c.burst cfg.collector now wall
      (BurstCollector.order cfg.collector c.pending best))).Yields _ _
  rw [hkept, if_neg hne]
  exact .call _ _ _ (.ret ())

end Worker

/-! ## The first upload and the frame in front -/

/-- The path whose last addition lies furthest back. -/
def oldest (arrivals : List Arrival) : Option String := (arrivals.map Arrival.path).dedup.head?

/-- The burst is named after the upload and has it in front. -/
structure SameFrame (b : Burst) (a : Arrival) : Prop where
  identity : b.identity = a.digest
  front : b.paths.head? = some a.path

theorem recent_of_fits {n : Nat} {l : List String} (h : l.dedup.length ≤ n) :
    recent n l = l.dedup := rtake_of_length_le h

/-- The front of the ordered ranking, if it contains the path. -/
theorem order_front {w : CollectorConfig} (hprefer : w.preferFirstCandidate = true)
    {pending ranked : List String} {path : String} (hranked : path ∈ ranked)
    (hpending : pending ≠ []) :
    (BurstCollector.order w pending ranked).head? = some path ↔
      pending.head? = some path ∨
        ∃ first, pending.head? = some first ∧ first ∉ ranked ∧ ranked.head? = some path := by
  obtain ⟨primary, others, rfl⟩ := List.exists_cons_of_ne_nil hpending
  simp only [BurstCollector.order, hprefer, Bool.true_and, decide_eq_true_eq, List.head?_cons,
    Option.some.injEq]
  split
  next hmem =>
    rw [List.head?_cons, Option.some.injEq]
    constructor
    · exact .inl
    · rintro (heq | ⟨first, rfl, hnot, -⟩)
      · exact heq
      · exact absurd hmem hnot
  next hnot =>
    constructor
    · exact fun h => .inr ⟨primary, rfl, hnot, h⟩
    · rintro (rfl | ⟨first, -, -, h⟩)
      · exact absurd hranked hnot
      · exact h

namespace Worker

/-- In every run, a burst that is flushed from a window of at most `max_candidates`
paths, whose first upload survives the ranking, has that upload in front exactly
if no other path was last added before it was, or if the one that was does not
survive and the ranking itself puts the first upload in front. -/
theorem first_upload_in_front {quietWindow : ℚ} {maxCandidates : Nat}
    {inRange : 1 ≤ maxCandidates ∧ maxCandidates ≤ 16}
    (hcollector : cfg.collector = .ofWorker quietWindow maxCandidates inRange) (gate : State)
    (files : String → Option (Content cfg.digests))
    (l : List (Choice WorkerEnv (WorkerCall cfg))) {c : CallId} {env : WorkerEnv}
    {collector : BurstCollector} {now : ℚ} {wall : DateTime} {s : WorkerState cfg}
    (htake : Worker.exec c env ((worker cfg).run (boot cfg gate files) l).state .take =
      some (.ok (some (collector, now, wall)), s))
    {best : List String} {t : List (Σ e, Except Exc (WorkerEff.Ans e))} {r : Except Exc Unit}
    {b : Burst} {x : Except Exc (Option Burst)}
    (hflush : (flushDue cfg).Yields (⟨.take, .ok (some (collector, now, wall))⟩ ::
      ⟨.rank collector.pending, .ok best⟩ :: t) r)
    (hput : ⟨.put b, x⟩ ∈ t) {first : Arrival}
    (hfirst : (window gate files l).head? = some first)
    (hfits : ((window gate files l).map Arrival.path).dedup.length ≤ maxCandidates)
    (hranked : first.path ∈ best) :
    SameFrame b first ↔
      oldest (window gate files l) = some first.path ∨
        ∃ path, oldest (window gate files l) = some path ∧ path ∉ best ∧
          best.head? = some first.path := by
  have hfollows := follows_window gate files l
  obtain rfl : collector = ((worker cfg).run (boot cfg gate files) l).state.collector := by
    simp only [Worker.exec] at htake
    split at htake <;> cases htake
    rfl
  rw [← hfollows.collector] at hflush
  have hb := flushDue_puts hflush hput
  have hpending := hfollows.holds.pending
  have hkey := hfollows.holds.key (by rw [hcollector]; rfl)
  rw [recent_of_fits (by rw [hcollector]; exact hfits)] at hpending
  have hne : (gathering (boot cfg gate files) {} l).collector.pending ≠ [] := by
    intro hnil
    rw [hpending, List.dedup_eq_nil, List.map_eq_nil_iff] at hnil
    rw [window, hnil] at hfirst
    cases hfirst
  have hidentity : b.identity = first.digest := by
    have hid : b.identity = if cfg.collector.includeIdempotencyKey then
        (gathering (boot cfg gate files) {} l).collector.idempotencyKey else none := by rw [hb]; rfl
    rw [hid, hkey, hcollector]
    show ((window gate files l).head?.bind Arrival.digest) = _
    rw [hfirst]
    rfl
  have hfront := order_front (w := cfg.collector) (by rw [hcollector]; rfl) hranked hne
  rw [hpending] at hfront
  rw [show SameFrame b first ↔ b.paths.head? = some first.path from
    ⟨SameFrame.front, fun h => ⟨hidentity, h⟩⟩, hb]
  rw [hpending]
  exact hfront

end Worker

/-! ### A hot frame in front -/

namespace Shifted

/-- A worker with hot frames. -/
def config : WorkerConfig := { Late.config with hotFrames := true }

/-- A complete JPEG with this digest. -/
def jpeg (digest : Digest) (h : digest.text.toList.head? ≠ some 'm') : Content config.digests where
  digest := digest
  size := 1
  readable := true
  fresh path heq := Late.text_ne h path (congrArg Digest.text heq).symm

def ftp : Content config.digests := jpeg ⟨"ftp", by decide⟩ (by decide)

def hot : Content config.digests := jpeg ⟨"hot", by decide⟩ (by decide)

/-- A call from beginning to end, with one hot frame to offer. -/
def whole (serial : Nat) (call : WorkerCall config) (clock : ℚ) :
    List (Choice WorkerEnv (WorkerCall config)) :=
  .begin ⟨0, serial⟩ call :: List.replicate 12
    (.step ⟨0, serial⟩ { Late.surroundings clock with hotFrames := .ok ["hot.jpg"] })

def init : WorkerWorld config := Worker.boot config { db := Db.fresh } fun _ => none

/-- The upload is created and collected with a hot frame. -/
def collected : List (Choice WorkerEnv (WorkerCall config)) :=
  whole 1 (.upload "hot.jpg" hot) 0 ++ whole 2 (.upload "ftp.jpg" ftp) 0 ++
    whole 3 (.notify (.created "ftp.jpg" false)) 0 ++ whole 4 .poll 0

/-- Its second notification comes within the window. -/
def closedAgain : List (Choice WorkerEnv (WorkerCall config)) :=
  collected ++ whole 5 (.notify (.closed "ftp.jpg" false)) (1 / 10) ++ whole 6 .poll (1 / 10)

/-- The window has two paths, both of them survive the ranking, and the burst that is
put into the queue is named after the upload and has the hot frame in front. -/
theorem hot_frame_in_front :
    (Worker.window { db := Db.fresh } (fun _ => none) closedAgain).map Arrival.path =
        ["ftp.jpg", "hot.jpg", "ftp.jpg"] ∧
      (((worker config).run init (closedAgain ++ whole 7 .poll 1)).state.queue.map fun b =>
        (b.paths, b.identity.map Digest.text)) = [(["hot.jpg", "ftp.jpg"], some "ftp")] := by
  decide +kernel

/-- The upload as it is collected for the first time. -/
def firstUpload : Arrival where
  path := "ftp.jpg"
  receivedAt := some datetimeMin
  arrivedAt := datetimeMin
  seenAt := 0
  addedAt := 0
  digest := some ⟨"ftp", by decide⟩

/-- The burst of the window with the first notification only. -/
def collectedBurst : Burst where
  paths := ["ftp.jpg", "hot.jpg"]
  receivedAt := some datetimeMin
  decisionStartedAt := some 1
  processingStartedAt := some datetimeMin
  identity := some ⟨"ftp", by decide⟩

/-- The ranking has the hot frame first, and the upload is put in front. -/
theorem first_upload_in_front_collected :
    SameFrame collectedBurst firstUpload ↔
      oldest (Worker.window { db := Db.fresh } (fun _ => none) collected) = some "ftp.jpg" ∨
        ∃ path, oldest (Worker.window { db := Db.fresh } (fun _ => none) collected) = some path ∧
          path ∉ ["hot.jpg", "ftp.jpg"] ∧ ["hot.jpg", "ftp.jpg"].head? = some "ftp.jpg" := by
  have hkept : (((worker config).run init collected).state.collector.pending.filter
      (· ∉ BurstCollector.order config.collector
        ((worker config).run init collected).state.collector.pending
        ["hot.jpg", "ftp.jpg"])) = [] := by decide +kernel
  have hne : BurstCollector.order config.collector
      ((worker config).run init collected).state.collector.pending
      ["hot.jpg", "ftp.jpg"] ≠ [] := by decide +kernel
  have hburst : ((worker config).run init collected).state.collector.burst config.collector 1
      datetimeMin (BurstCollector.order config.collector
        ((worker config).run init collected).state.collector.pending
        ["hot.jpg", "ftp.jpg"]) = collectedBurst := by decide +kernel
  have htake : Worker.exec ⟨0, 9⟩ (Late.surroundings 1)
      ((worker config).run (Worker.boot config { db := Db.fresh } fun _ => none) collected).state
        .take = some (.ok (some (((worker config).run init collected).state.collector, 1,
          datetimeMin)), { ((worker config).run init collected).state with collector := {} }) :=
    if_pos (by decide +kernel)
  have hflush := @Worker.yields_flushDue config _ 1 datetimeMin _ hkept hne
  rw [hburst] at hflush
  have hcollector : config.collector = .ofWorker (1 / 2) 8 ⟨by decide, by decide⟩ := rfl
  have hfirst : (Worker.window { db := Db.fresh } (fun _ => none) collected).head? =
      some firstUpload := by decide +kernel
  exact Worker.first_upload_in_front hcollector { db := Db.fresh } (fun _ => none) collected htake
    hflush List.mem_cons_self hfirst (by decide +kernel) (by decide)

end Shifted

end GateController
