import GateController.Worker.QueueDiscipline

/-!
# The burst queue loses and duplicates nothing

The log of a run is read as a history of insertions and takings.  The inner
queue is what was inserted and not yet taken, in order.  A call has moved what
its watch says, so the returns of the calls account for every taking, and the
one `stop` that gets past the flag accounts for the sentinel.
-/

namespace GateController

open Effects

variable {α : Type} {q : BoundedBurstQueue}

/-! ## What the queue has seen -/

/-- A `stop` that got past the flag. -/
def QueueWatch.Raised (w : QueueWatch α) : Prop :=
  w.call = .stop ∧ (w.stage = .draining ∨ w.stage = .drained ∨ w.stage = .done)

theorem QueueWatch.Raised.of_next {w : QueueWatch α} {e : QueueEff α} {r : Except QueueExc e.Ans}
    (hallow : w.allow e) (h : (w.next e r).Raised) : w.Raised ∨ e = .setStopping := by
  cases e with
  | acquire => simp [Raised, next] at h
  | release => exact .inl h
  | setStopping => exact .inr rfl
  | stopping =>
      cases r with
      | error x => exact .inl h
      | ok flag => cases flag <;> simp [Raised, next, afterFlag] at h
  | full =>
      cases r with
      | error x => exact .inl h
      | ok full => cases full <;> simp [Raised, next, afterFull] at h
  | getNowait =>
      rcases hallow with ⟨hstage, -⟩ | ⟨hstage, hcall⟩
      · cases r with
        | error x => simp [Raised, next, hstage] at h
        | ok item => simp [Raised, next, take, hstage] at h
      · exact .inl ⟨hcall, .inl hstage⟩
  | putNowait item =>
      rcases hallow with ⟨-, x, hcall, -⟩ | ⟨hstage, hcall, -⟩
      · simp [Raised, next, hcall] at h
      · exact .inl ⟨hcall, .inr (.inl hstage)⟩
  | get =>
      cases r with
      | error x => exact .inl h
      | ok item => simp [Raised, next, receive, hallow.2] at h

/-- First in, first out, one `stop` at most that raises the flag, and what came out since a
`stop` found the queue empty. -/
structure QueueHistory (q : BoundedBurstQueue) (s : QueueState α) (log : List (QueueEvent α)) :
    Prop where
  fifo : (insertions log).map Prod.snd = (takings log).map Prod.snd ++ s.items
  single : ∀ c d w v, ghost (fun _ => queueWatch q) c log = some w →
    ghost (fun _ => queueWatch q) d log = some v → w.Raised → v.Raised → c = d
  closed : ∀ c w earlier later, log = later ++ .did c .getNowait (.error .empty) :: earlier →
    ghost (fun _ => queueWatch q) c earlier = some w → w.call = .stop →
    ∃ v, ghost (fun _ => queueWatch q) c log = some v ∧ v.call = .stop ∧
      (v.stage = .drained ∧ received later ++ s.items = [] ∨
        v.stage = .done ∧ received later ++ s.items = [none])

section History

variable {s s' : QueueState α} {log : List (QueueEvent α)} {c d : CallId} {w v : QueueWatch α}
  {e : QueueEff α} {r : Except QueueExc e.Ans}

/-- The items move as the log says. -/
theorem BoundedBurstQueue.exec_items (hexec : q.exec c s e = some (r, s')) :
    s.items ++ (inserted (.did c e r : QueueEvent α)).map Prod.snd =
      (taken (.did c e r : QueueEvent α)).map Prod.snd ++ s'.items := by
  cases e with
  | acquire =>
      simp only [exec] at hexec
      split at hexec
      · cases hexec
        simp [inserted, taken]
      · cases hexec
  | release => cases hexec; simp [inserted, taken]
  | stopping => cases hexec; simp [inserted, taken]
  | setStopping => cases hexec; simp [inserted, taken]
  | full => cases hexec; simp [inserted, taken]
  | getNowait =>
      simp only [exec] at hexec
      split at hexec
      · cases hexec
        simp [inserted, taken]
      · next hitems =>
        cases hexec
        simp [inserted, taken, hitems]
  | putNowait item =>
      simp only [exec] at hexec
      split at hexec
      · cases hexec
        simp [inserted, taken]
      · cases hexec
        simp [inserted, taken]
  | get =>
      simp only [exec] at hexec
      split at hexec
      · cases hexec
      · next hitems =>
        cases hexec
        simp [inserted, taken, hitems]

theorem QueueHistory.did_fifo (h : QueueHistory q s log) (hexec : q.exec c s e = some (r, s')) :
    (insertions (.did c e r :: log)).map Prod.snd =
      (takings (.did c e r :: log)).map Prod.snd ++ s'.items := by
  have hmove := BoundedBurstQueue.exec_items hexec
  have hfifo := h.fifo
  unfold insertions takings at hfifo ⊢
  simp only [collect, List.map_append, List.append_assoc, hfifo, hmove]

theorem QueueHistory.did_single (h : QueueHistory q s log) (hI : QueueInv q s log)
    (hghost : ghost (fun _ => queueWatch q) c log = some w) (hallow : w.allow e) :
    ∀ a b x y, ghost (fun _ => queueWatch q) a (.did c e r :: log) = some x →
      ghost (fun _ => queueWatch q) b (.did c e r :: log) = some y → x.Raised → y.Raised →
      a = b := by
  -- the flag is down when a call raises it, so no other call has
  have hclash : ∀ b y, b ≠ c → ghost (fun _ => queueWatch q) b log = some y → y.Raised →
      (w.next e r).Raised → False := fun b y hb hy hyr hr => by
    rcases hr.of_next hallow with hw | rfl
    · exact hb (h.single b c y w hy hghost hyr hw)
    · have hup := (hI.each b y hy).raised hyr.1 hyr.2
      rw [(hI.each c w hghost).unset (.inl hallow.1)] at hup
      cases hup
  intro a b x y hx hy hxr hyr
  by_cases ha : a = c
  · subst ha
    by_cases hb : b = a
    · exact hb.symm
    · cases hx.symm.trans (ghost_did_self hghost)
      rw [ghost_did_ne (Ne.symm hb)] at hy
      exact (hclash b y hb hy hyr hxr).elim
  · rw [ghost_did_ne (Ne.symm ha)] at hx
    by_cases hb : b = c
    · subst hb
      cases hy.symm.trans (ghost_did_self hghost)
      exact (hclash a x ha hx hxr hyr).elim
    · rw [ghost_did_ne (Ne.symm hb)] at hy
      exact h.single a b x y hx hy hxr hyr

/-- Once a `stop` is past the flag, no other call moves items inside the lock. -/
theorem QueueHistory.others_still (h : QueueHistory q s log) (hI : QueueInv q s log) (hd : d ≠ c)
    (hv : ghost (fun _ => queueWatch q) c log = some v) (hraised : v.Raised)
    (hghost : ghost (fun _ => queueWatch q) d log = some w) (hallow : w.allow e) :
    e ≠ .getNowait ∧ ∀ item, e ≠ .putNowait item := by
  have hup := (hI.each c v hv).raised hraised.1 hraised.2
  have hdown : w.stage ≠ .crowded ∧ w.stage ≠ .room := by
    constructor <;> intro hstage
    · rw [(hI.each d w hghost).unset (.inr (.inl hstage))] at hup
      cases hup
    · rw [(hI.each d w hghost).unset (.inr (.inr hstage))] at hup
      cases hup
  have hother : ¬ w.Raised := fun hw => hd (h.single d c w v hghost hv hw hraised)
  constructor
  · rintro rfl
    rcases hallow with ⟨hstage, -⟩ | ⟨hstage, hcall⟩
    · exact hdown.1 hstage
    · exact hother ⟨hcall, .inl hstage⟩
  · rintro item rfl
    rcases hallow with ⟨hstage, -⟩ | ⟨hstage, hcall, -⟩
    · exact hdown.2 hstage
    · exact hother ⟨hcall, .inr (.inl hstage)⟩

theorem QueueWatch.allow_drained (hstage : w.stage = .drained) (hallow : w.allow e) :
    e = .putNowait none := by
  cases e with
  | release => exact absurd (.inr (.inr (.inr (.inr (.inr hstage))))) hallow.2
  | putNowait item =>
      rcases hallow with ⟨hroom, -⟩ | ⟨-, -, rfl⟩
      · rw [hstage] at hroom
        cases hroom
      · rfl
  | _ => simp [allow, hstage] at hallow

theorem QueueWatch.allow_done (hstage : w.stage = .done) (hallow : w.allow e) : e = .release := by
  cases e with
  | release => rfl
  | _ => simp [allow, hstage] at hallow

/-- What a step of another call does to the items: the consumer may receive one. -/
theorem received_of_still (hexec : q.exec d s e = some (r, s')) (hget : e ≠ .getNowait)
    (hput : ∀ item, e ≠ .putNowait item) (later : List (QueueEvent α)) :
    received (.did d e r :: later) ++ s'.items = received later ++ s.items := by
  have hmove := BoundedBurstQueue.exec_items hexec
  have hinserted : inserted (.did d e r : QueueEvent α) = [] := by
    cases e with
    | putNowait item => exact absurd rfl (hput item)
    | _ => rfl
  have hconsumed : consumed (.did d e r : QueueEvent α) =
      (taken (.did d e r : QueueEvent α)).map Prod.snd := by
    cases e with
    | getNowait => exact absurd rfl hget
    | get => cases r <;> rfl
    | _ => rfl
  unfold received
  rw [hinserted, List.map_nil, List.append_nil, ← hconsumed] at hmove
  rw [hmove, collect, List.append_assoc]

theorem QueueHistory.did_closed (h : QueueHistory q s log) (hI : QueueInv q s log)
    (hghost : ghost (fun _ => queueWatch q) d log = some w) (hallow : w.allow e)
    (hexpect : w.expect q e r) (hexec : q.exec d s e = some (r, s')) (c : CallId)
    (u : QueueWatch α) (earlier later : List (QueueEvent α))
    (hlog : .did d e r :: log = later ++ .did c .getNowait (.error .empty) :: earlier)
    (hu : ghost (fun _ => queueWatch q) c earlier = some u) (hcall : u.call = .stop) :
    ∃ v, ghost (fun _ => queueWatch q) c (.did d e r :: log) = some v ∧ v.call = .stop ∧
      (v.stage = .drained ∧ received later ++ s'.items = [] ∨
        v.stage = .done ∧ received later ++ s'.items = [none]) := by
  cases later with
  | nil =>
      -- the entry at which the queue was found empty
      cases hlog
      cases hu.symm.trans hghost
      refine ⟨_, ghost_did_self hghost, hcall, .inl ?_⟩
      have hstage : w.stage = .draining := by
        rcases hallow with ⟨-, x, hx⟩ | ⟨hstage, -⟩
        · rw [hcall] at hx
          cases hx
        · exact hstage
      simp only [BoundedBurstQueue.exec] at hexec
      split at hexec
      · next hitems =>
        cases hexec
        exact ⟨by simp [queueWatch, QueueWatch.next, hstage], hitems⟩
      · cases hexec
  | cons ev later =>
      obtain ⟨rfl, rfl⟩ := List.cons.inj hlog
      obtain ⟨v, hv, hvcall, hcases⟩ := h.closed c u earlier later rfl hu hcall
      by_cases hd : d = c
      · subst hd
        cases hv.symm.trans hghost
        refine ⟨_, ghost_did_self hghost, ?_⟩
        rcases hcases with ⟨hstage, hrest⟩ | ⟨hstage, hrest⟩
        · cases QueueWatch.allow_drained hstage hallow
          cases r with
          | error x => exact hexpect.elim
          | ok u =>
              refine ⟨hvcall, .inr ⟨rfl, ?_⟩⟩
              obtain ⟨hreceived, hitems⟩ := List.append_eq_nil_iff.1 hrest
              have hmove := BoundedBurstQueue.exec_items hexec
              simp only [inserted, taken, hitems, List.map_cons, List.map_nil, List.nil_append]
                at hmove
              unfold received at hreceived ⊢
              rw [← hmove, collect, hreceived]
              rfl
        · cases QueueWatch.allow_done hstage hallow
          cases hexec
          exact ⟨hvcall, .inr ⟨hstage, by simpa [received, collect, consumed] using hrest⟩⟩
      · refine ⟨v, (ghost_did_ne hd).trans hv, hvcall, ?_⟩
        have hraised : v.Raised := ⟨hvcall, hcases.imp And.left And.left |>.elim
          (fun h => .inr (.inl h)) (fun h => .inr (.inr h))⟩
        obtain ⟨hget, hput⟩ := h.others_still hI hd hv hraised hghost hallow
        rw [received_of_still hexec hget hput]
        exact hcases

end History

/-- An entry that is no operation leaves the history as it was. -/
theorem QueueHistory.idle {s : QueueState α} {log : List (QueueEvent α)} {ev : QueueEvent α}
    (h : QueueHistory q s log) (hins : inserted ev = []) (htak : taken ev = [])
    (hcon : consumed ev = []) (hne : ∀ c, ev ≠ .did c .getNowait (.error .empty))
    (hold : ∀ c w, ghost (fun _ => queueWatch q) c (ev :: log) = some w → w.stage = .called ∨
      ghost (fun _ => queueWatch q) c log = some w)
    (hnew : ∀ c w, ghost (fun _ => queueWatch q) c log = some w →
      ghost (fun _ => queueWatch q) c (ev :: log) = some w) : QueueHistory q s (ev :: log) where
  fifo := by
    have hfifo := h.fifo
    unfold insertions takings at hfifo ⊢
    rw [collect, collect, hins, htak, List.append_nil, List.append_nil]
    exact hfifo
  single c d w v hw hv hwr hvr := by
    have hback : ∀ c w, ghost (fun _ => queueWatch q) c (ev :: log) = some w → w.Raised →
        ghost (fun _ => queueWatch q) c log = some w := fun c w hw hr => by
      refine (hold c w hw).resolve_left fun hstage => ?_
      simp [QueueWatch.Raised, hstage] at hr
    exact h.single c d w v (hback c w hw hwr) (hback d v hv hvr) hwr hvr
  closed c w earlier later hlog hw hcall := by
    cases later with
    | nil => exact absurd (List.cons.inj hlog).1 (hne c)
    | cons ev' later =>
        obtain ⟨rfl, rfl⟩ := List.cons.inj hlog
        obtain ⟨v, hv, hrest⟩ := h.closed c w earlier later rfl hw hcall
        refine ⟨v, hnew c v hv, ?_⟩
        unfold received at hrest ⊢
        rw [collect, hcon, List.append_nil]
        exact hrest

theorem queue_history (q : BoundedBurstQueue) :
    Keeps (q.machine (α := α)) (fun _ => queueWatch q) (fun _ => QueueWatch.Returns)
      (fun _ _ => True) (QueueInv q) (QueueHistory q) where
  began w c call s' _ _ hJ _ hbegun haccept := by
    cases haccept
    refine hJ.idle rfl rfl rfl nofun (fun d v hv => ?_) fun d v hv => ghost_began_of hbegun hv
    obtain ⟨rfl, rfl⟩ | hold := ghost_of_began hv
    · exact .inl rfl
    · exact .inr hold
  did w c env e k s r s' _ hI hJ _ _ _ hghost hallow hexec := by
    have hexpect := ((hI.each c s hghost).own hI.bounded hI.plain hallow hexec).1
    exact ⟨hJ.did_fifo hexec, hJ.did_single hI hghost hallow,
      hJ.did_closed hI hghost hallow hexpect hexec⟩
  ended w c s r _ _ hJ _ _ _ := hJ.idle rfl rfl rfl nofun (fun _ _ h => .inr h) fun _ _ h => h
  crashed w p env _ _ hJ _ := hJ.idle rfl rfl rfl nofun (fun _ _ h => .inr h) fun _ _ h => h

/-! ## The flag -/

/-- A `stop` that got past the flag and through its drain is there. -/
def Drained (q : BoundedBurstQueue) (log : List (QueueEvent α)) : Prop :=
  ∃ d v, ghost (fun _ => queueWatch q) d log = some v ∧ v.call = .stop ∧ v.stage = .done

/-- Where the flag is up, a `stop` has raised it, and a call that was refused came after the
drain of that `stop`. -/
structure QueueFlag (q : BoundedBurstQueue) (s : QueueState α) (log : List (QueueEvent α)) :
    Prop where
  raised : s.stopping = true → ∃ d v, ghost (fun _ => queueWatch q) d log = some v ∧ v.Raised
  refused : ∀ c w, ghost (fun _ => queueWatch q) c log = some w → w.stage = .refused →
    Drained q log

section Flag

variable {s s' : QueueState α} {log : List (QueueEvent α)} {c : CallId} {w : QueueWatch α}
  {e : QueueEff α} {r : Except QueueExc e.Ans}

theorem QueueWatch.Raised.next (hexpect : w.expect q e r) (hallow : w.allow e) (h : w.Raised) :
    (w.next e r).Raised := by
  obtain ⟨hcall, hstage | hstage | hstage⟩ := h
  · cases e with
    | getNowait =>
        cases r with
        | error x => exact ⟨hcall, .inr (.inl (by simp [QueueWatch.next, hstage]))⟩
        | ok item => exact ⟨hcall, .inl (by simp [QueueWatch.next, QueueWatch.take, hstage])⟩
    | release => exact absurd (.inr (.inr (.inr (.inr (.inl hstage))))) hallow.2
    | putNowait item =>
        rcases hallow with ⟨hroom, -⟩ | ⟨hdrained, -⟩
        · rw [hstage] at hroom
          cases hroom
        · rw [hstage] at hdrained
          cases hdrained
    | _ => simp [allow, hstage] at hallow
  · cases QueueWatch.allow_drained hstage hallow
    exact ⟨hcall, .inr (.inr rfl)⟩
  · cases QueueWatch.allow_done hstage hallow
    exact ⟨hcall, .inr (.inr hstage)⟩

theorem Drained.did (h : Drained q log) (hghost : ghost (fun _ => queueWatch q) c log = some w)
    (hallow : w.allow e) : Drained q (.did c e r :: log) := by
  obtain ⟨d, v, hv, hcall, hstage⟩ := h
  by_cases hd : c = d
  · subst hd
    cases hghost.symm.trans hv
    cases QueueWatch.allow_done hstage hallow
    exact ⟨c, _, ghost_did_self hv, hcall, hstage⟩
  · exact ⟨d, v, (ghost_did_ne hd).trans hv, hcall, hstage⟩

theorem BoundedBurstQueue.exec_flag (hexec : q.exec c s e = some (r, s'))
    (h : s'.stopping = true) : s.stopping = true ∨ e = .setStopping := by
  cases e with
  | acquire =>
      simp only [exec] at hexec
      split at hexec
      · cases hexec
        exact .inl h
      · cases hexec
  | setStopping => exact .inr rfl
  | getNowait =>
      simp only [exec] at hexec
      split at hexec <;> cases hexec <;> exact .inl h
  | putNowait item =>
      simp only [exec] at hexec
      split at hexec <;> cases hexec <;> exact .inl h
  | get =>
      simp only [exec] at hexec
      split at hexec
      · cases hexec
      · cases hexec
        exact .inl h
  | _ =>
      cases hexec
      exact .inl h

theorem QueueFlag.did_raised (h : QueueFlag q s log)
    (hghost : ghost (fun _ => queueWatch q) c log = some w) (hallow : w.allow e)
    (hexpect : w.expect q e r) (hexec : q.exec c s e = some (r, s')) (hup : s'.stopping = true) :
    ∃ d v, ghost (fun _ => queueWatch q) d (.did c e r :: log) = some v ∧ v.Raised := by
  rcases BoundedBurstQueue.exec_flag hexec hup with hold | rfl
  · obtain ⟨d, v, hv, hraised⟩ := h.raised hold
    by_cases hd : c = d
    · subst hd
      cases hghost.symm.trans hv
      exact ⟨c, _, ghost_did_self hv, hraised.next hexpect hallow⟩
    · exact ⟨d, v, (ghost_did_ne hd).trans hv, hraised⟩
  · exact ⟨c, _, ghost_did_self hghost, hallow.2, .inl rfl⟩

/-- A call that finds the flag up is alone inside the lock, so the drain is over. -/
theorem QueueFlag.did_refused (h : QueueFlag q s log) (hI : QueueInv q s log)
    (hghost : ghost (fun _ => queueWatch q) c log = some w) (hallow : w.allow e)
    (hexec : q.exec c s e = some (r, s')) (hstage : (w.next e r).stage = .refused) :
    Drained q log := by
  cases e with
  | stopping =>
      cases hexec
      have hentered : w.stage = .entered := hallow
      have hup : s.stopping = true := by
        by_contra hdown
        simp [QueueWatch.next, QueueWatch.afterFlag, hdown] at hstage
      obtain ⟨d, v, hv, hcall, hraised⟩ := h.raised hup
      have hdone : v.stage = .done := by
        have hholder := (hI.each c w hghost).holder ((hI.each c w hghost).busy (.inl hentered))
        have houtside : v.inside ≠ true := fun hinside => by
          have hsame := hholder.symm.trans ((hI.each d v hv).holder hinside)
          cases hsame
          cases hghost.symm.trans hv
          simp [hentered] at hraised
        rcases hraised with hdraining | hdrained | hdone
        · exact absurd ((hI.each d v hv).busy (.inr (.inr (.inr (.inr (.inl hdraining)))))) houtside
        · exact absurd ((hI.each d v hv).busy (.inr (.inr (.inr (.inr (.inr hdrained)))))) houtside
        · exact hdone
      exact ⟨d, v, hv, hcall, hdone⟩
  | release => exact h.refused c w hghost hstage
  | full =>
      cases hexec
      simp only [QueueWatch.next, QueueWatch.afterFull] at hstage
      split at hstage <;> cases hstage
  | getNowait =>
      cases r with
      | error x =>
          simp only [QueueWatch.next] at hstage
          split at hstage <;> cases hstage
      | ok item =>
          simp only [QueueWatch.next, QueueWatch.take] at hstage
          split at hstage
          · cases hstage
          · exact h.refused c w hghost hstage
  | get =>
      cases r with
      | error x => exact h.refused c w hghost hstage
      | ok item => cases hstage
  | _ => cases hstage

theorem QueueFlag.idle {ev : QueueEvent α} (h : QueueFlag q s log)
    (hold : ∀ c w, ghost (fun _ => queueWatch q) c (ev :: log) = some w → w.stage = .called ∨
      ghost (fun _ => queueWatch q) c log = some w)
    (hnew : ∀ c w, ghost (fun _ => queueWatch q) c log = some w →
      ghost (fun _ => queueWatch q) c (ev :: log) = some w) : QueueFlag q s (ev :: log) where
  raised hup := by
    obtain ⟨d, v, hv, hraised⟩ := h.raised hup
    exact ⟨d, v, hnew d v hv, hraised⟩
  refused c w hw hstage := by
    rcases hold c w hw with hcalled | hback
    · rw [hstage] at hcalled
      cases hcalled
    · obtain ⟨d, v, hv, hdone⟩ := h.refused c w hback hstage
      exact ⟨d, v, hnew d v hv, hdone⟩

end Flag

theorem queue_flag (q : BoundedBurstQueue) :
    Keeps (q.machine (α := α)) (fun _ => queueWatch q) (fun _ => QueueWatch.Returns)
      (fun _ _ => True) (fun s log => QueueInv q s log ∧ QueueHistory q s log) (QueueFlag q) where
  began w c call s' _ _ hF _ hbegun haccept := by
    cases haccept
    refine hF.idle (fun d v hv => ?_) fun d v hv => ghost_began_of hbegun hv
    obtain ⟨rfl, rfl⟩ | hold := ghost_of_began hv
    · exact .inl rfl
    · exact .inr hold
  did w c env e k s r s' _ hI hF _ _ _ hghost hallow hexec := by
    have hexpect := ((hI.1.each c s hghost).own hI.1.bounded hI.1.plain hallow hexec).1
    refine ⟨hF.did_raised hghost hallow hexpect hexec, fun d v hv hstage => ?_⟩
    refine Drained.did ?_ hghost hallow
    by_cases hd : c = d
    · subst hd
      cases hv.symm.trans (ghost_did_self hghost)
      exact hF.did_refused hI.1 hghost hallow hexec hstage
    · exact hF.refused d v ((ghost_did_ne hd).symm.trans hv) hstage
  ended w c s r _ _ hF _ _ _ := hF.idle (fun _ _ h => .inr h) fun _ _ h => h
  crashed w p env _ _ hF _ := hF.idle (fun _ _ h => .inr h) fun _ _ h => h

/-! ## The part of one call -/

/-- What a call has put into the inner queue. -/
def QueueWatch.placed (w : QueueWatch α) : List (Option α) :=
  match w.call with
  | .put item => if w.stage = .done then [some item] else []
  | .get => []
  | .stop => if w.stage = .done then [none] else []

section Tally

variable {log : List (QueueEvent α)} {c d : CallId} {w : QueueWatch α} {e : QueueEff α}
  {r : Except QueueExc e.Ans}

theorem ofCall_append (c : CallId) (m₁ m₂ : List (CallId × Option α)) :
    ofCall c (m₁ ++ m₂) = ofCall c m₁ ++ ofCall c m₂ := by
  simp [ofCall]

/-- A call that is not done and moves to a stage that is not done has placed nothing. -/
theorem QueueWatch.placed_of_ne (h : w.stage ≠ .done) : w.placed = [] := by
  unfold placed
  cases w.call with
  | put item => exact if_neg h
  | get => rfl
  | stop => exact if_neg h

/-- An operation of a call adds to what the call has placed and taken. -/
theorem QueueWatch.next_moves (hallow : w.allow e) (hexpect : w.expect q e r) :
    (w.next e r).placed = w.placed ++ (inserted (.did c e r : QueueEvent α)).map Prod.snd ∧
      (w.next e r).took = w.took ++ (taken (.did c e r : QueueEvent α)).map Prod.snd := by
  cases e with
  | acquire =>
      simp [next, inserted, taken, placed_of_ne, hallow.1]
  | release => exact ⟨(List.append_nil _).symm, (List.append_nil _).symm⟩
  | stopping =>
      have hstage : w.stage = .entered := hallow
      cases r with
      | error x => exact hexpect.elim
      | ok flag => cases flag <;> simp [next, inserted, taken, placed_of_ne, afterFlag, hstage]
  | setStopping => simp [next, inserted, taken, placed_of_ne, hallow.1]
  | full =>
      cases r with
      | error x => exact hexpect.elim
      | ok full => cases full <;> simp [next, inserted, taken, placed_of_ne, afterFull, hallow.1]
  | getNowait =>
      rcases hallow with ⟨hstage, -⟩ | ⟨hstage, -⟩
      · cases r <;> simp [next, take, inserted, taken, placed_of_ne, hstage]
      · cases r <;> simp [next, take, inserted, taken, placed_of_ne, hstage]
  | putNowait item =>
      cases r with
      | error x => exact hexpect.elim
      | ok u =>
          rcases hallow with ⟨hstage, x, hcall, rfl⟩ | ⟨hstage, hcall, rfl⟩
          · simp [next, inserted, taken, placed, hcall, hstage]
          · simp [next, inserted, taken, placed, hcall, hstage]
  | get =>
      cases r with
      | error x => exact hexpect.elim
      | ok item => simp [next, receive, inserted, taken, placed, hallow.2]

theorem ofCall_inserted_self : ofCall c (inserted (.did c e r : QueueEvent α)) =
    (inserted (.did c e r : QueueEvent α)).map Prod.snd := by
  cases e with
  | putNowait item => cases r <;> simp [ofCall, inserted]
  | _ => rfl

theorem ofCall_taken_self : ofCall c (taken (.did c e r : QueueEvent α)) =
    (taken (.did c e r : QueueEvent α)).map Prod.snd := by
  cases e with
  | getNowait => cases r <;> simp [ofCall, taken]
  | get => cases r <;> simp [ofCall, taken]
  | _ => rfl

theorem ofCall_inserted_ne (hd : d ≠ c) :
    ofCall c (inserted (.did d e r : QueueEvent α)) = [] := by
  cases e with
  | putNowait item => cases r <;> simp [ofCall, inserted, hd]
  | _ => rfl

theorem ofCall_taken_ne (hd : d ≠ c) : ofCall c (taken (.did d e r : QueueEvent α)) = [] := by
  cases e with
  | getNowait => cases r <;> simp [ofCall, taken, hd]
  | get => cases r <;> simp [ofCall, taken, hd]
  | _ => rfl

/-- What the log says a call has moved. -/
def Moved (log : List (QueueEvent α)) (c : CallId) (placed took : List (Option α)) : Prop :=
  ofCall c (insertions log) = placed ∧ ofCall c (takings log) = took

theorem Moved.cons {placed took : List (Option α)} {ev : QueueEvent α} (h : Moved log c placed took) :
    Moved (ev :: log) c (placed ++ ofCall c (inserted ev)) (took ++ ofCall c (taken ev)) := by
  unfold Moved insertions takings at *
  rw [collect, collect, ofCall_append, ofCall_append, h.1, h.2]
  exact ⟨rfl, rfl⟩

theorem Moved.idle {placed took : List (Option α)} {ev : QueueEvent α} (h : Moved log c placed took)
    (hins : ofCall c (inserted ev) = []) (htak : ofCall c (taken ev) = []) :
    Moved (ev :: log) c placed took := by
  have hcons : Moved (ev :: log) c _ _ := h.cons
  rwa [hins, htak, List.append_nil, List.append_nil] at hcons

/-- The log and the watch agree about what a call has moved. -/
theorem moved_of_lawful
    (h : Lawful (fun _ => queueWatch q) (fun _ => QueueWatch.Returns) log) (c : CallId) :
    (ghost (fun _ => queueWatch q) c log = none → Moved log c [] []) ∧
      ∀ w, ghost (fun _ => queueWatch q) c log = some w → Moved log c w.placed w.took := by
  induction log with
  | nil => exact ⟨fun _ => ⟨rfl, rfl⟩, fun w hw => by cases hw⟩
  | cons ev log ih =>
      obtain ⟨hnone, hsome⟩ := ih h.2
      cases ev with
      | began d call =>
          by_cases hd : d = c
          · subst hd
            have hghost : ghost (fun _ => queueWatch q) d log = none := by
              rw [← Option.not_isSome_iff_eq_none, ghost_isSome]
              exact h.1
            refine ⟨fun hn => ?_, fun w hw => ?_⟩
            · rw [ghost_began_self] at hn
              cases hn
            · cases hw.symm.trans ghost_began_self
              have hplaced : (QueueWatch.start call).placed = [] := QueueWatch.placed_of_ne nofun
              refine Moved.idle ?_ rfl rfl
              exact hplaced.symm ▸ hnone hghost
          · rw [ghost_began_ne hd]
            exact ⟨fun hn => (hnone hn).idle rfl rfl, fun w hw => (hsome w hw).idle rfl rfl⟩
      | did d e r =>
          by_cases hd : d = c
          · subst hd
            obtain ⟨-, w, hw, hallow, hexpect⟩ := h.1
            refine ⟨fun hn => ?_, fun v hv => ?_⟩
            · rw [ghost_did_self hw] at hn
              cases hn
            · cases hv.symm.trans (ghost_did_self hw)
              obtain ⟨hplaced, htook⟩ := QueueWatch.next_moves (c := d) hallow hexpect
              have hcons : Moved (.did d e r :: log) d _ _ := (hsome w hw).cons
              rw [ofCall_inserted_self, ofCall_taken_self] at hcons
              exact ⟨hcons.1.trans hplaced.symm, hcons.2.trans htook.symm⟩
          · rw [ghost_did_ne hd]
            have hins := ofCall_inserted_ne (e := e) (r := r) hd
            have htak := ofCall_taken_ne (e := e) (r := r) hd
            exact ⟨fun hn => (hnone hn).idle hins htak, fun w hw => (hsome w hw).idle hins htak⟩
      | ended d r => exact ⟨fun hn => (hnone hn).idle rfl rfl, fun w hw => (hsome w hw).idle rfl rfl⟩
      | crashed p => exact ⟨fun hn => (hnone hn).idle rfl rfl, fun w hw => (hsome w hw).idle rfl rfl⟩

end Tally

/-! ## Nothing is lost and nothing is duplicated -/

/-- What the log of a queue says about every item. -/
structure QueueKept (q : BoundedBurstQueue) (w : QueueWorld α) : Prop where
  /-- The items leave in the order in which they came, and the rest is still queued. -/
  fifo : (insertions w.log).map Prod.snd = (takings w.log).map Prod.snd ++ w.state.items
  /-- The consumer receives items in the order of the puts. -/
  order : (received w.log).Sublist ((insertions w.log).map Prod.snd)
  capacity : w.state.items.length ≤ q.maxsize
  neverFull : ∀ c item x, .did c (.putNowait item) (.error x) ∉ w.log
  /-- A `put` places its item at most once, and nothing else. -/
  placed : ∀ c item, .began c (.put item) ∈ w.log →
    ofCall c (insertions w.log) = [] ∨ ofCall c (insertions w.log) = [some item]
  /-- A `put` that returned either placed its item and returns what it displaced, or hands its
  own item back because the queue was stopping. -/
  put : ∀ c item r, .began c (.put item) ∈ w.log → .ended c r ∈ w.log →
    (ofCall c (insertions w.log) = [some item] ∧ ∃ dropped : Option α, r = .ok (.dropped dropped) ∧
        ofCall c (takings w.log) = dropped.toList.map some) ∨
      (ofCall c (insertions w.log) = [] ∧ ofCall c (takings w.log) = [] ∧
        r = .ok (.dropped (some item)) ∧ w.state.stopping = true)
  /-- A `get` that returned took out what it returns. -/
  get : ∀ c r, .began c .get ∈ w.log → .ended c r ∈ w.log →
    ofCall c (insertions w.log) = [] ∧
      ∃ item, r = .ok (.got item) ∧ ofCall c (takings w.log) = [item]
  /-- A `stop` that returned took out what it returns, items only. -/
  stop : ∀ c r, .began c .stop ∈ w.log → .ended c r ∈ w.log →
    ∃ items : List α, r = .ok (.drained (items.map some)) ∧
      ofCall c (takings w.log) = items.map some
  /-- One `stop` raises the flag, and once some `stop` has returned it has also found the queue
  empty and left one `None`. -/
  drained : ∀ c r, .began c .stop ∈ w.log → .ended c r ∈ w.log →
    ∃ d, .began d .stop ∈ w.log ∧ .did d .setStopping (.ok ()) ∈ w.log ∧
      (∀ d' r', .did d' .setStopping r' ∈ w.log → d' = d) ∧
      .did d .getNowait (.error .empty) ∈ w.log ∧ ofCall d (insertions w.log) = [none]
  /-- Once a `stop` has found the queue empty, all that the consumer receives is one `None`,
  which waits in the queue until then. -/
  closed : ∀ c earlier later, w.log = later ++ .did c .getNowait (.error .empty) :: earlier →
    .began c .stop ∈ w.log →
    (received later ++ w.state.items = [] ∨ received later ++ w.state.items = [none]) ∧
      ∀ r, .ended c r ∈ w.log → received later ++ w.state.items = [none]

section Kept

variable {log : List (QueueEvent α)} {c : CallId}

theorem QueueWatch.next_call (w : QueueWatch α) (e : QueueEff α) (r : Except QueueExc e.Ans) :
    (w.next e r).call = w.call := by
  cases e with
  | stopping => cases r <;> rfl
  | full => cases r <;> rfl
  | getNowait => cases r <;> rfl
  | get => cases r <;> rfl
  | _ => rfl

/-- A call that has begun is watched as that call. -/
theorem watched_of_began {call : QueueCall α}
    (h : Lawful (fun _ => queueWatch q) (fun _ => QueueWatch.Returns) log)
    (hmem : .began c call ∈ log) :
    ∃ w, ghost (fun _ => queueWatch q) c log = some w ∧ w.call = call := by
  obtain ⟨later, earlier, rfl⟩ := List.append_of_mem hmem
  obtain ⟨w, hw, hsteps⟩ := h.steps (List.suffix_append later _) ghost_began_self
  exact ⟨w, hw, hsteps.keeps (Φ := fun w => w.call = call)
    (fun w e r _ _ hc => (w.next_call e r).trans hc) rfl⟩

/-- A call that has ended stands where it returned. -/
theorem watched_of_ended {r : Except QueueExc (QueueReturn α)}
    (h : Lawful (fun _ => queueWatch q) (fun _ => QueueWatch.Returns) log)
    (hmem : .ended c r ∈ log) :
    ∃ w, ghost (fun _ => queueWatch q) c log = some w ∧ w.Returns r := by
  obtain ⟨later, earlier, rfl⟩ := List.append_of_mem hmem
  have hsuffix : Event.ended c r :: earlier <:+ later ++ Event.ended c r :: earlier :=
    List.suffix_append later _
  obtain ⟨-, w, hw, hreturns⟩ := h.ended hsuffix
  exact ⟨w, (h.settled hsuffix).1.trans hw, hreturns⟩

/-- A watched call has begun as the call that it is. -/
theorem began_of_watched {w : QueueWatch α} {call : QueueCall α}
    (h : Lawful (fun _ => queueWatch q) (fun _ => QueueWatch.Returns) log)
    (hghost : ghost (fun _ => queueWatch q) c log = some w) (hcall : w.call = call) :
    .began c call ∈ log := by
  obtain ⟨call', hmem⟩ := Begun.exists_began (ghost_isSome.1 (by rw [hghost]; rfl))
  obtain ⟨w', hw', rfl⟩ := watched_of_began h hmem
  cases hghost.symm.trans hw'
  rwa [hcall] at hmem

theorem raised_event {w : QueueWatch α}
    (h : Lawful (fun _ => queueWatch q) (fun _ => QueueWatch.Returns) log)
    (hghost : ghost (fun _ => queueWatch q) c log = some w) (hraised : w.Raised) :
    .did c .setStopping (.ok ()) ∈ log := by
  obtain ⟨e, r, earlier, w', hmem, hw', hnot, hnow⟩ :=
    h.origin (Φ := QueueWatch.Raised) hghost hraised fun call hr => by
      simp [QueueWatch.Raised, queueWatch, QueueWatch.start] at hr
  obtain ⟨-, u, hu, hallow, hexpect⟩ := h.did hmem
  cases hw'.symm.trans hu
  rcases QueueWatch.Raised.of_next hallow hnow with hold | rfl
  · exact absurd hold hnot
  · cases r with
    | error x => exact hexpect.elim
    | ok u => exact hmem.mem List.mem_cons_self

/-- Only one `stop` raises the flag. -/
theorem raised_of_event {r : Except QueueExc Unit}
    (h : Lawful (fun _ => queueWatch q) (fun _ => QueueWatch.Returns) log)
    (hmem : .did c .setStopping r ∈ log) :
    ∃ w, ghost (fun _ => queueWatch q) c log = some w ∧ w.Raised := by
  obtain ⟨later, earlier, rfl⟩ := List.append_of_mem hmem
  obtain ⟨-, u, hu, hallow, -⟩ := h.did (List.suffix_append later _)
  obtain ⟨w, hw, hsteps⟩ := h.steps (List.suffix_append later _) (ghost_did_self hu)
  exact ⟨w, hw, hsteps.keeps (Φ := QueueWatch.Raised)
    (fun w e r hallow hexpect hr => hr.next hexpect hallow) ⟨hallow.2, .inl rfl⟩⟩

theorem empty_event {w : QueueWatch α}
    (h : Lawful (fun _ => queueWatch q) (fun _ => QueueWatch.Returns) log)
    (hghost : ghost (fun _ => queueWatch q) c log = some w) (hcall : w.call = .stop)
    (hstage : w.stage = .done) : .did c .getNowait (.error .empty) ∈ log := by
  obtain ⟨e, r, earlier, w', hmem, hw', hnot, hnow, hend⟩ :=
    h.origin (Φ := fun w => w.call = .stop ∧ (w.stage = .drained ∨ w.stage = .done)) hghost
      ⟨hcall, .inr hstage⟩ fun call hr => by simp [queueWatch, QueueWatch.start] at hr
  obtain ⟨-, u, hu, hallow, hexpect⟩ := h.did hmem
  cases hw'.symm.trans hu
  have hstop : w'.call = .stop := (w'.next_call e r).symm.trans hnow
  have hback : (w'.next e r).stage = w'.stage → False := fun heq =>
    hnot ⟨hstop, heq ▸ hend⟩
  cases e with
  | getNowait =>
      cases r with
      | error x =>
          cases (show x = .empty from hexpect)
          exact hmem.mem List.mem_cons_self
      | ok item =>
          rcases hallow with ⟨-, x, hput⟩ | ⟨hdraining, -⟩
          · rw [hstop] at hput
            cases hput
          · exact (hback (by simp [QueueWatch.next, QueueWatch.take, hdraining])).elim
  | putNowait item =>
      rcases hallow with ⟨-, x, hput, -⟩ | ⟨hdrained, -⟩
      · rw [hstop] at hput
        cases hput
      · exact absurd ⟨hstop, .inl hdrained⟩ hnot
  | get => cases hstop.symm.trans hallow.2
  | release => exact (hback rfl).elim
  | stopping =>
      cases r with
      | error x => exact (hback rfl).elim
      | ok flag => cases flag <;> simp [queueWatch, QueueWatch.next, QueueWatch.afterFlag] at hend
  | full =>
      cases r with
      | error x => exact (hback rfl).elim
      | ok full => cases full <;> simp [queueWatch, QueueWatch.next, QueueWatch.afterFull] at hend
  | _ => simp [queueWatch, QueueWatch.next] at hend

/-- A `stop` takes out items only. -/
theorem stop_took_items (h : Lawful (fun _ => queueWatch q) (fun _ => QueueWatch.Returns) log) :
    Ever (fun _ => queueWatch q)
      (fun _ (w : QueueWatch α) => w.call = .stop → ∃ items : List α, w.took = items.map some) log := by
  refine h.ever (fun _ _ _ => ⟨[], rfl⟩) fun _ w e r hallow hexpect hw hcall => ?_
  obtain ⟨items, hitems⟩ := hw ((w.next_call e r).symm.trans hcall)
  cases e with
  | getNowait =>
      cases r with
      | error x => exact ⟨items, hitems⟩
      | ok item =>
          obtain ⟨y, rfl⟩ := Option.isSome_iff_exists.1 hexpect.1
          refine ⟨items ++ [y], ?_⟩
          simp [queueWatch, QueueWatch.next, QueueWatch.take, hitems]
  | get =>
      have hget := hallow.2
      rw [(w.next_call _ r).symm.trans hcall] at hget
      cases hget
  | stopping => cases r <;> exact ⟨items, hitems⟩
  | full => cases r <;> exact ⟨items, hitems⟩
  | _ => exact ⟨items, hitems⟩

theorem received_sublist (log : List (QueueEvent α)) :
    (received log).Sublist ((takings log).map Prod.snd) := by
  unfold received takings
  induction log with
  | nil => exact List.Sublist.refl _
  | cons ev log ih =>
      rw [collect, collect, List.map_append]
      refine ih.append ?_
      cases ev with
      | did c e r =>
          cases e with
          | get => cases r <;> exact List.Sublist.refl _
          | _ => exact List.nil_sublist _
      | _ => exact List.nil_sublist _

end Kept

/-- From the invariants to what they say about the log. -/
theorem QueueKept.of_history {w : QueueWorld α}
    (hlawful : Lawful (fun _ => queueWatch q) (fun _ => QueueWatch.Returns) w.log)
    (hI : QueueInv q w.state w.log) (hJ : QueueHistory q w.state w.log)
    (hF : QueueFlag q w.state w.log) : QueueKept q w where
  fifo := hJ.fifo
  order := by
    rw [hJ.fifo]
    exact (received_sublist w.log).trans (List.sublist_append_left _ _)
  capacity := hI.bounded
  neverFull c item x hmem := by
    obtain ⟨later, earlier, hlog⟩ := List.append_of_mem hmem
    obtain ⟨-, v, -, -, hexpect⟩ := hlawful.did (hlog ▸ List.suffix_append later _)
    exact hexpect
  placed c item hmem := by
    obtain ⟨v, hv, hcall⟩ := watched_of_began hlawful hmem
    rw [((moved_of_lawful hlawful c).2 v hv).1, QueueWatch.placed, hcall]
    dsimp only
    split
    · exact .inr rfl
    · exact .inl rfl
  put c item r hbegan hended := by
    obtain ⟨v, hv, hcall⟩ := watched_of_began hlawful hbegan
    obtain ⟨v', hv', hreturns⟩ := watched_of_ended hlawful hended
    cases hv.symm.trans hv'
    obtain ⟨hplaced, htook⟩ := (moved_of_lawful hlawful c).2 v hv
    have hcases := hreturns.2
    rw [hplaced, htook, QueueWatch.placed]
    rw [hcall] at hcases ⊢
    rcases hcases with ⟨hstage, htaken, hr⟩ | ⟨hstage, dropped, htaken, hr⟩
    · exact .inr ⟨by simp [hstage], htaken, hr, (hI.each c v hv).refused hstage⟩
    · exact .inl ⟨by simp [hstage], dropped, hr, htaken⟩
  get c r hbegan hended := by
    obtain ⟨v, hv, hcall⟩ := watched_of_began hlawful hbegan
    obtain ⟨v', hv', hreturns⟩ := watched_of_ended hlawful hended
    cases hv.symm.trans hv'
    obtain ⟨hplaced, htook⟩ := (moved_of_lawful hlawful c).2 v hv
    have hcases := hreturns.2
    rw [hplaced, htook, QueueWatch.placed]
    rw [hcall] at hcases ⊢
    obtain ⟨-, item, htaken, hr⟩ := hcases
    exact ⟨rfl, item, hr, htaken⟩
  stop c r hbegan hended := by
    obtain ⟨v, hv, hcall⟩ := watched_of_began hlawful hbegan
    obtain ⟨v', hv', hreturns⟩ := watched_of_ended hlawful hended
    cases hv.symm.trans hv'
    obtain ⟨-, htook⟩ := (moved_of_lawful hlawful c).2 v hv
    obtain ⟨items, hitems⟩ := stop_took_items hlawful c v hv hcall
    have hcases := hreturns.2
    rw [hcall] at hcases
    refine ⟨items, ?_, htook.trans hitems⟩
    rcases hcases with ⟨-, htaken, hr⟩ | ⟨-, hr⟩
    · rw [hr, ← hitems, htaken]
    · rw [hr, hitems]
  drained c r hbegan hended := by
    obtain ⟨v, hv, hcall⟩ := watched_of_began hlawful hbegan
    obtain ⟨v', hv', hreturns⟩ := watched_of_ended hlawful hended
    cases hv.symm.trans hv'
    have hcases := hreturns.2
    rw [hcall] at hcases
    obtain ⟨d, u, hu, hstop, hdone⟩ : Drained q w.log := by
      rcases hcases with ⟨hstage, -⟩ | ⟨hstage, -⟩
      · exact hF.refused c v hv hstage
      · exact ⟨c, v, hv, hcall, hstage⟩
    have hraised := raised_event hlawful hu ⟨hstop, .inr (.inr hdone)⟩
    refine ⟨d, began_of_watched hlawful hu hstop, hraised, fun d' r' hmem => ?_, ?_, ?_⟩
    · obtain ⟨v', hv', hraised'⟩ := raised_of_event hlawful hmem
      exact hJ.single d' d v' u hv' hu hraised' ⟨hstop, .inr (.inr hdone)⟩
    · exact empty_event hlawful hu hstop hdone
    · rw [((moved_of_lawful hlawful d).2 u hu).1, QueueWatch.placed, hstop]
      exact if_pos hdone
  closed c earlier later hlog hbegan := by
    have hsuffix : .did c .getNowait (.error .empty) :: earlier <:+ w.log :=
      hlog ▸ List.suffix_append later _
    obtain ⟨v, hv, hcall⟩ := watched_of_began hlawful hbegan
    obtain ⟨-, u, hu, -⟩ := hlawful.did hsuffix
    -- the call was the same `stop` when it found the queue empty
    obtain ⟨v', hv', hsteps⟩ := hlawful.steps ((List.suffix_cons _ _).trans hsuffix) hu
    cases hv.symm.trans hv'
    have hstop : u.call = .stop := by
      have hkeep : v.call = u.call := hsteps.keeps (Φ := fun x => x.call = u.call)
        (fun x e r _ _ hx => (x.next_call e r).trans hx) rfl
      exact hkeep.symm.trans hcall
    obtain ⟨v', hv', -, hcases⟩ := hJ.closed c u earlier later hlog hu hstop
    cases hv.symm.trans hv'
    refine ⟨hcases.imp And.right And.right, fun r hended => ?_⟩
    obtain ⟨v', hv', hreturns⟩ := watched_of_ended hlawful hended
    cases hv.symm.trans hv'
    rcases hcases with ⟨hstage, -⟩ | ⟨-, hrest⟩
    · have hinside := (hI.each c v hv).busy (.inr (.inr (.inr (.inr (.inr hstage)))))
      rw [hreturns.1] at hinside
      cases hinside
    · exact hrest

/-- In every run of any number of producers, consumers and stops, and in every order of their
single operations, an item passed to `put` is in exactly one place: it is still in the hands of
its `put`, it was handed back because the queue was stopping, it is queued, or exactly one call
has taken it out and returns it.  The consumer receives items in order, the inner queue never
overflows, and after a drain the consumer receives one `None` and nothing else. -/
theorem queue_keeps_items (q : BoundedBurstQueue) (choices : List (Choice Unit (QueueCall α))) :
    QueueKept q (q.machine.run (World.init QueueState.init) choices) := by
  have hinit : QueueInv q (QueueState.init : QueueState α) [] :=
    ⟨fun _ _ h => (by cases h), Nat.zero_le _, fun _ _ h => (by cases h)⟩
  have hempty : QueueHistory q (QueueState.init : QueueState α) [] :=
    ⟨rfl, fun _ _ _ _ h => (by cases h), fun _ _ earlier later h => (by simp at h)⟩
  have hdown : QueueFlag q (QueueState.init : QueueState α) [] :=
    ⟨fun h => (by cases h), fun _ _ h => (by cases h)⟩
  obtain ⟨hsound, ⟨hI, hJ⟩, hF⟩ :=
    (((queue_invariant q).and (queue_history q)).and (queue_flag q)).run
      (w := World.init QueueState.init) (l := choices) (Sound.init _ _ _)
      ⟨⟨hinit, hempty⟩, hdown⟩ (Machine.admits_true _ _)
  exact .of_history hsound.lawful hI hJ hF

end GateController
