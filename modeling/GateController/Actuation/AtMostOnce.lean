import GateController.Actuation.Ledger
import GateController.Runtime.History

/-!
# At most one pulse for a key

A key has at most one row, and the row has at most one owner (`Ledger`).  A call
that comes to `trigger` owns the row of its key, because it has marked it, and
it comes there once.
-/

namespace GateController

open Data Effects Proc LocalStore ActuationCoordinator

variable {cfg : Nat → Config} {log : Log}

/-- `Ledger` holds in every run. -/
theorem ledger_keeps (cfg : Nat → Config) :
    Keeps (gate cfg) (watch cfg) (Concluded cfg) (fun _ _ => True) (Base cfg) (Ledger cfg) where
  began _ _ _ _ _ _ h _ _ haccept := h.began haccept
  did _ c _ _ _ s _ _ _ hbase h _ _ _ hghost hallow hexec :=
    h.did_step hghost (hbase.coherent c s hghost) hallow hexec
  ended _ _ _ _ _ _ h _ _ _ := ⟨h.recorded, h.distinct⟩
  crashed _ p env _ _ h _ := h.crash p env

/-- Whether an entry of the log is a call of `trigger` for the key, made by a
coordinator. -/
def isTriggerCall (key : String) : Event Eff Eff.Ans Exc Call Result → Bool
  | .did _ (.mark (.triggerCalled k _)) _ => k == key
  | _ => false

theorem isTriggerCall_iff {key : String} {ev : Event Eff Eff.Ans Exc Call Result} :
    isTriggerCall key ev = true ↔
      ∃ c inhibit r, ev = .did c (.mark (.triggerCalled key inhibit)) r := by
  constructor
  · intro h
    unfold isTriggerCall at h
    split at h
    · next c k inhibit r =>
      cases beq_iff_eq.1 h
      exact ⟨c, inhibit, r, rfl⟩
    · cases h
  · rintro ⟨c, inhibit, r, rfl⟩
    exact beq_self_eq_true key

/-- Where no entry that counts has another one before it, at most one counts. -/
theorem countP_le_one {α : Type} {p : α → Bool} {l : List α}
    (h : ∀ a earlier, a :: earlier <:+ l → p a = true → ∀ b ∈ earlier, p b = false) :
    l.countP p ≤ 1 := by
  induction l with
  | nil => simp
  | cons a l ih =>
      rw [List.countP_cons]
      split
      · next ha =>
        have hzero : l.countP p = 0 :=
          List.countP_eq_zero.2 fun b hb => by simp [h a l List.suffix_rfl ha b hb]
        omega
      · exact ih fun b earlier hsuffix => h b earlier (hsuffix.trans (List.suffix_cons _ _))

/-- A call of `trigger` is by a call that owns the key, and is its first. -/
theorem trigger_owner {Q : CallId → Watch → Except Exc Result → Prop}
    (h : Lawful (watch cfg) Q log) {c : CallId} {key : String}
    {inhibit : Option (Asking (Option Inhibition))} {r : Except Exc Unit} {earlier : Log}
    (hmem : .did c (.mark (.triggerCalled key inhibit)) r :: earlier <:+ log) :
    ∃ s s' a m, ghost (watch cfg) c earlier = some s ∧ s.store.called = false ∧
      s.store.Owns a m.claim ∧ s.store.marked = some m ∧ a.idempotencyKey = key ∧
      ghost (watch cfg) c log = some s' ∧ s'.store.called = true ∧ s'.store.Owns a m.claim := by
  obtain ⟨s, s', hs, hallow, -, hs', hlater⟩ := later_of_did h hmem
  obtain ⟨-, hcalled, -, ⟨m, hm, hkey⟩, -⟩ := hallow
  have hcoh := coherent_of_lawful (h.suffix ((List.suffix_cons _ _).trans hmem)) c s hs
  obtain ⟨-, a, now, hown, -⟩ := hcoh.marked m hm
  exact ⟨s, s', a, m, hs, hcalled, hown, hm, hown.2.2.symm.trans hkey, hs', hlater.called rfl,
    hlater.owns hown⟩

/-- In every run, from any database, the coordinators call `trigger` at most once
for a key.  The call that does has itself inserted the claim of the key and
committed its mark. -/
theorem trigger_at_most_once (cfg : Nat → Config) (db : Db) (boot : Option String)
    (l : List (Choice Env Call)) (key : String) :
    ((gate cfg).run (gateInit db boot) l).log.countP (isTriggerCall key) ≤ 1 ∧
    ∀ c inhibit r earlier, .did c (.mark (.triggerCalled key inhibit)) r :: earlier <:+
        ((gate cfg).run (gateInit db boot) l).log →
      ∃ a claim m, .did c (.store (.claimActuation a)) (.ok claim) ∈ earlier ∧
        a.idempotencyKey = key ∧ claim.status = .claimed ∧
        .did c (.store (.markActuationAttempt m)) (.ok ()) ∈ earlier ∧ m.claim = claim := by
  obtain ⟨hsound, -, hledger⟩ := gate_run (ledger_keeps cfg) (Ledger.init db boot)
    ((gate cfg).admits_true (gateInit db boot) l) rfl
  have hlaw := hsound.lawful
  refine ⟨countP_le_one fun ev later hlate hev ev' hev' => ?_, fun c inhibit r earlier hmem => ?_⟩
  · rw [Bool.eq_false_iff]
    intro hcount
    obtain ⟨c, inhibit, r, rfl⟩ := isTriggerCall_iff.1 hev
    obtain ⟨d, inhibit', r', rfl⟩ := isTriggerCall_iff.1 hcount
    obtain ⟨earlier, hearly⟩ := List.mem_iff_append.1 hev'
    obtain ⟨between, hsplit⟩ := hearly
    have hfirst : .did d (.mark (.triggerCalled key inhibit')) r' :: between <:+ later :=
      ⟨earlier, hsplit.symm⟩
    have hwhole := (List.suffix_cons _ _).trans hlate
    obtain ⟨s, t, a, m, hs, hcalled, -, -, hkey, ht, -, hown⟩ := trigger_owner hlaw hlate
    obtain ⟨-, t', b, m', -, -, -, -, hkey', ht', -, hown'⟩ :=
      trigger_owner hlaw (hfirst.trans hwhole)
    -- Both own the key at the end, so they are one call, which had called already.
    cases hledger.key_unique ht ht' hown hown' (hkey.trans hkey'.symm)
    obtain ⟨-, t'', -, -, -, -, -, -, -, ht'', hcalled', -⟩ :=
      trigger_owner (hlaw.suffix hwhole) hfirst
    rw [hs] at ht''
    cases ht''
    rw [hcalled] at hcalled'
    cases hcalled'
  · obtain ⟨s, -, a, m, hs, -, hown, hm, hkey, -⟩ := trigger_owner hlaw hmem
    have hlaw' := hlaw.suffix ((List.suffix_cons _ _).trans hmem)
    exact ⟨a, m.claim, m, claimed_event hlaw' hs hown.1, hkey, hown.2.1, marked_event hlaw' hs hm,
      rfl⟩

end GateController
