import GateController.Delivery.Rows
import GateController.Delivery.Wire

/-!
# What becomes of a stored trace

A trace is stored as the store took it over.  An attempt to deliver it, and the end of an
attempt, set its `delivery`, two of its durations and some of its times, and keep what
`_same_trace` compares.  Only the beginning of an attempt counts it.
-/

namespace GateController

open Data Effects LocalStore EventTelemetry

namespace Delivery

variable {e : EventTelemetry} {attempt : Int} {trace trace' durations stamps : Fields}

/-! ## What is compared -/

theorem immutable_ok {kept : Fields} (h : sameTrace.immutable trace = .ok kept) :
    ∃ durations stamps, dictOf (Fields.get? trace "stage_durations") = .ok durations ∧
      dictOf (Fields.get? trace "stage_timestamps") = .ok stamps ∧
      kept = compared trace durations stamps := by
  cases hdurations : dictOf (Fields.get? trace "stage_durations") with
  | error x =>
      rw [sameTrace.immutable, hdurations] at h
      cases h
  | ok durations =>
      cases hstamps : dictOf (Fields.get? trace "stage_timestamps") with
      | error x =>
          rw [sameTrace.immutable, hdurations, hstamps] at h
          cases h
      | ok stamps =>
          rw [immutable_eq hdurations hstamps] at h
          cases h
          exact ⟨durations, stamps, rfl, rfl, rfl⟩

theorem compared_set_delivery {value : Json} :
    compared (Fields.set trace "delivery" value) durations stamps =
      compared trace durations stamps := by
  rw [compared, compared, Fields.erase_set_self]

/-- The times of the delivery do not count. -/
theorem compared_set_stamps {value : Json} {stamps' : Fields}
    (hthere : Fields.get? trace "stage_durations" ≠ none)
    (h : (stamps'.filter fun f => !isCloudStamp f) = stamps.filter fun f => !isCloudStamp f) :
    compared (Fields.set trace "stage_timestamps" value) durations stamps' =
      compared trace durations stamps := by
  have hthere' : Fields.get? (Fields.erase trace "delivery") "stage_durations" ≠ none := by
    rwa [Fields.get?_erase_ne (by decide)]
  have herase : Fields.erase (Fields.set trace "stage_timestamps" value) "delivery" =
      Fields.set (Fields.erase trace "delivery") "stage_timestamps" value :=
    Fields.erase_set_ne (by decide)
  rw [compared, compared, herase, Fields.set_comm (by decide) hthere', h]
  split
  next => rw [Fields.erase_set_self]
  next => rw [Fields.set_set_self]

/-- Nor do its durations. -/
theorem compared_set_durations {durations' : Fields}
    (h : Fields.erase (Fields.erase durations' "delivery_lag_ms") "cloud_send_to_ack_ms" =
      Fields.erase (Fields.erase durations "delivery_lag_ms") "cloud_send_to_ack_ms") :
    compared (Fields.set trace "stage_durations" (.obj durations')) durations' stamps =
      compared trace durations stamps := by
  have herase : Fields.erase (Fields.set trace "stage_durations" (.obj durations')) "delivery" =
      Fields.set (Fields.erase trace "delivery") "stage_durations" (.obj durations') :=
    Fields.erase_set_ne (by decide)
  rw [compared, compared, herase, Fields.set_set_self, h]

/-! ## What is read of a stored trace -/

/-- The types that a stored trace must have. -/
def contract (trace : Fields) : Bool :=
  hasType trace "trace_id" isStr && hasType trace "taxonomy_version" isInt &&
    hasType trace "stage_durations" isDict && hasType trace "frames" isList &&
    hasType trace "ocr_attempts" isList && hasType trace "decision" isDict &&
    hasType trace "actuation" isDict && hasType trace "delivery" isDict

theorem decodeTelemetryPayload_ok :
    decodeTelemetryPayload (.json (.obj trace)) = .ok trace' ↔
      trace' = trace ∧ contract trace = true ∧
        stampsValid (Fields.get? trace "stage_timestamps") = true := by
  rw [decodeTelemetryPayload, ← contract]
  cases contract trace with
  | false => simp
  | true =>
      cases stampsValid (Fields.get? trace "stage_timestamps") with
      | false => simp
      | true => simp [eq_comm]

theorem hasType_set_self {name : String} {value : Json} {type : Json → Bool} :
    hasType (Fields.set trace name value) name type = type value := by
  rw [hasType, Fields.get?_set_self]
  rfl

theorem hasType_set_ne {name other : String} {value : Json} {type : Json → Bool}
    (h : other ≠ name) :
    hasType (Fields.set trace name value) other type = hasType trace other type := by
  rw [hasType, Fields.get?_set_ne h, hasType]

/-- An entry that is an object may be replaced by another object. -/
theorem contract_set {name : String} {fields : Fields} (h : contract trace = true)
    (hname : name = "delivery" ∨ name = "stage_durations" ∨ name = "stage_timestamps") :
    contract (Fields.set trace name (.obj fields)) = true := by
  have hdict : isDict (.obj fields) = true := rfl
  unfold contract at h ⊢
  simp only [Bool.and_eq_true] at h ⊢
  obtain ⟨⟨⟨⟨⟨⟨⟨hid, hversion⟩, hdurations⟩, hframes⟩, hattempts⟩, hdecision⟩, hactuation⟩,
    hdelivery⟩ := h
  obtain rfl | rfl | rfl := hname
  · simp [hasType_set_self, hasType_set_ne, *]
  · simp [hasType_set_self, hasType_set_ne, *]
  · simp [hasType_set_ne, *]

/-- What is stored of a trace, after so many attempts. -/
structure TraceOf (e : EventTelemetry) (attempt : Int) (trace : Fields) : Prop where
  contract : contract trace = true
  stamps : stampsValid (Fields.get? trace "stage_timestamps") = true
  lasting : sameTrace.immutable trace = .ok e.lasting
  delivery : ∃ state, Fields.get? trace "delivery" = some (deliveryOf attempt state)
  bounds : 0 ≤ attempt ∧ attempt ≤ maxDeliveryAttempt

namespace TraceOf

theorem decodes (h : TraceOf e attempt trace) :
    decodeTelemetryPayload (.json (.obj trace)) = .ok trace :=
  decodeTelemetryPayload_ok.2 ⟨rfl, h.contract, h.stamps⟩

theorem telemetryAttempt (h : TraceOf e attempt trace) :
    GateController.telemetryAttempt trace = .ok attempt := by
  obtain ⟨state, hstate⟩ := h.delivery
  have hint : intOf (.num (attempt : ℚ)) = some attempt := by
    simp [intOf]
  have hattempt : Fields.get? [("outbox_attempt", .num (attempt : ℚ)), ("state", .str state)]
      "outbox_attempt" = some (.num (attempt : ℚ)) := rfl
  rw [GateController.telemetryAttempt, hstate, deliveryOf]
  simp only [dictOf, bind, Except.bind, pure, Except.pure, hattempt, Option.getD_some, hint,
    max_eq_left h.bounds.1, min_eq_left h.bounds.2]

/-- The durations and the times are objects. -/
theorem parts (h : TraceOf e attempt trace) :
    ∃ durations stamps, Fields.get? trace "stage_durations" = some (.obj durations) ∧
      dictOf (Fields.get? trace "stage_timestamps") = .ok stamps ∧
      stamps.all (fun f => isStr f.2) = true ∧ compared trace durations stamps = e.lasting := by
  obtain ⟨durations, stamps, hdurations, hstamps, hkept⟩ := immutable_ok h.lasting
  have hdict : hasType trace "stage_durations" isDict = true := by
    have hcontract := h.contract
    unfold Delivery.contract at hcontract
    simp only [Bool.and_eq_true] at hcontract
    exact hcontract.1.1.1.1.1.2
  have hvalid := h.stamps
  refine ⟨durations, stamps, ?_, hstamps, ?_, hkept.symm⟩
  · cases hget : Fields.get? trace "stage_durations" with
    | none => simp [hasType, hget] at hdict
    | some value =>
        rw [hget] at hdurations
        cases value with
        | obj fields =>
            cases hdurations
            rfl
        | _ => cases hdurations
  · cases hget : Fields.get? trace "stage_timestamps" with
    | none =>
        rw [hget] at hstamps
        cases hstamps
        rfl
    | some value =>
        rw [hget] at hstamps hvalid
        cases value with
        | obj fields =>
            cases hstamps
            exact hvalid
        | _ => cases hstamps

theorem set_delivery (h : TraceOf e attempt trace) {n : Int} (hn : 0 ≤ n ∧ n ≤ maxDeliveryAttempt)
    (state : String) : TraceOf e n (Fields.set trace "delivery" (deliveryOf n state)) where
  contract := contract_set h.contract (.inl rfl)
  stamps := by
    rw [Fields.get?_set_ne (by decide)]
    exact h.stamps
  lasting := by
    obtain ⟨durations, stamps, hdurations, hstamps, -, hkept⟩ := h.parts
    rw [immutable_eq, compared_set_delivery, hkept]
    · rw [Fields.get?_set_ne (by decide), hdurations]
      rfl
    · rw [Fields.get?_set_ne (by decide), hstamps]
  delivery := ⟨state, Fields.get?_set_self⟩
  bounds := hn

theorem set_stamps (h : TraceOf e attempt trace) {stamps stamps' : Fields}
    (hstamps : dictOf (Fields.get? trace "stage_timestamps") = .ok stamps)
    (hvalid : stamps'.all (fun f => isStr f.2) = true)
    (hkept : (stamps'.filter fun f => !isCloudStamp f) =
      stamps.filter fun f => !isCloudStamp f) :
    TraceOf e attempt (Fields.set trace "stage_timestamps" (.obj stamps')) where
  contract := contract_set h.contract (.inr (.inr rfl))
  stamps := by
    rw [Fields.get?_set_self]
    exact hvalid
  lasting := by
    obtain ⟨durations, old, hdurations, hold, -, hlasting⟩ := h.parts
    cases hold.symm.trans hstamps
    rw [immutable_eq,
      compared_set_stamps (by simp [hdurations]) hkept, hlasting]
    · rw [Fields.get?_set_ne (by decide), hdurations]
      rfl
    · rw [Fields.get?_set_self]
      rfl
  delivery := by
    rw [Fields.get?_set_ne (by decide)]
    exact h.delivery
  bounds := h.bounds

theorem setDuration (h : TraceOf e attempt trace) {name : String} {value : Int}
    (hname : name = "delivery_lag_ms" ∨ name = "cloud_send_to_ack_ms")
    (hset : GateController.setDuration trace name value = .ok trace') :
    TraceOf e attempt trace' := by
  obtain ⟨durations, stamps, hdurations, hstamps, -, hlasting⟩ := h.parts
  have heq : trace' = Fields.set trace "stage_durations"
      (.obj (Fields.set durations name (.num value))) := by
    rw [GateController.setDuration, item, hdurations] at hset
    exact (Except.ok.inj hset).symm
  subst heq
  have herase : Fields.erase (Fields.erase (Fields.set durations name (.num value))
        "delivery_lag_ms") "cloud_send_to_ack_ms" =
      Fields.erase (Fields.erase durations "delivery_lag_ms") "cloud_send_to_ack_ms" := by
    obtain rfl | rfl := hname
    · rw [Fields.erase_set_self]
    · rw [Fields.erase_set_ne (by decide), Fields.erase_set_self]
  refine ⟨contract_set h.contract (.inr (.inl rfl)), ?_, ?_, ?_, h.bounds⟩
  · rw [Fields.get?_set_ne (by decide)]
    exact h.stamps
  · rw [immutable_eq,
      compared_set_durations herase, hlasting]
    · rw [Fields.get?_set_self]
      rfl
    · rw [Fields.get?_set_ne (by decide), hstamps]
  · rw [Fields.get?_set_ne (by decide)]
    exact h.delivery

end TraceOf

/-! ## Times -/

theorem all_set {stamps : Fields} {name text : String}
    (h : stamps.all (fun f => isStr f.2) = true) :
    (Fields.set stamps name (.str text)).all (fun f => isStr f.2) = true := by
  induction stamps with
  | nil => rfl
  | cons f rest ih =>
      rw [List.all_cons, Bool.and_eq_true] at h
      rw [Fields.set]
      split
      next =>
        rw [List.all_cons, h.2]
        rfl
      next =>
        rw [List.all_cons, h.1, ih h.2]
        rfl

theorem all_setDefault {stamps : Fields} {name text : String}
    (h : stamps.all (fun f => isStr f.2) = true) :
    (setDefault stamps name (.str text)).all (fun f => isStr f.2) = true := by
  unfold setDefault
  split
  next => exact h
  next => exact all_set h

theorem all_erase {stamps : Fields} {name : String}
    (h : stamps.all (fun f => isStr f.2) = true) :
    (Fields.erase stamps name).all (fun f => isStr f.2) = true := by
  rw [List.all_eq_true] at h ⊢
  exact fun f hf => h f (List.mem_of_mem_filter hf)

/-- Setting a time of the delivery keeps the others. -/
theorem filter_set {stamps : Fields} {name : String} {value : Json}
    (hname : isCloudStamp (name, value) = true) :
    ((Fields.set stamps name value).filter fun f => !isCloudStamp f) =
      stamps.filter fun f => !isCloudStamp f := by
  have hcloud : ∀ f : String × Json, f.1 = name → isCloudStamp f = true := by
    rintro f rfl
    exact hname
  induction stamps with
  | nil => simp [Fields.set, hname]
  | cons f rest ih =>
      rw [Fields.set]
      split
      next hf =>
        have hf' : f.1 = name := by simpa using hf
        rw [List.filter_cons, List.filter_cons, hcloud f hf', hname]
        rfl
      next => rw [List.filter_cons, List.filter_cons, ih]

theorem filter_setDefault {stamps : Fields} {name : String} {value : Json}
    (hname : isCloudStamp (name, value) = true) :
    ((setDefault stamps name value).filter fun f => !isCloudStamp f) =
      stamps.filter fun f => !isCloudStamp f := by
  unfold setDefault
  split
  next => rfl
  next => exact filter_set hname

theorem filter_erase {stamps : Fields} {name : String}
    (hname : ∀ value, isCloudStamp (name, value) = true) :
    ((Fields.erase stamps name).filter fun f => !isCloudStamp f) =
      stamps.filter fun f => !isCloudStamp f := by
  unfold Fields.erase
  rw [List.filter_filter]
  refine List.filter_congr fun f _ => ?_
  by_cases hf : f.1 = name
  · have hcloud : isCloudStamp f = true := by
      have hf' : f = (name, f.2) := Prod.ext hf rfl
      rw [hf']
      exact hname f.2
    simp [hcloud]
  · simp [hf]

theorem isCloudStamp_enqueued (value : Json) :
    isCloudStamp ("cloud_enqueued_at", value) = true := by
  simp only [isCloudStamp]
  decide

theorem isCloudStamp_started (value : Json) :
    isCloudStamp ("cloud_send_started_at", value) = true := by
  simp only [isCloudStamp]
  decide

theorem isCloudStamp_acknowledged (value : Json) :
    isCloudStamp ("cloud_acknowledged_at", value) = true := by
  simp only [isCloudStamp]
  decide

/-! ## What the operations make of a trace -/

/-- What the store takes over is a trace that was not tried yet by this store. -/
theorem traceOf_payload (e : EventTelemetry) : TraceOf e e.wireAttempt e.payload where
  contract := rfl
  stamps := by
    rw [get?_stamps]
    obtain ⟨-, ⟨-, hnone⟩ | ⟨hsome, -, -⟩⟩ := e.tail_cases
    · rw [hnone]
      rfl
    · rw [hsome, stampsValid, List.all_eq_true]
      intro f hf
      obtain ⟨entry, -, hentry⟩ := List.mem_filterMap.1 hf
      obtain ⟨encoded, hencoded, rfl⟩ := Option.map_eq_some_iff.1 hentry
      obtain ⟨text, -, rfl⟩ := Option.map_eq_some_iff.1 hencoded
      rfl
  lasting := e.immutable_payload
  delivery := ⟨token e.deliveryState, by
    rw [payload, get?_head_ne (.inl rfl), Fields.get?_cons, if_pos rfl]⟩
  bounds := by
    have hmax : (0 : Int) ≤ maxDeliveryAttempt := by decide
    unfold wireAttempt roundedInt
    split
    next => exact ⟨le_refl 0, hmax⟩
    next => omega

/-- With the time of the outbox row, it is still that trace. -/
theorem TraceOf.enrich (h : TraceOf e attempt trace) {createdAt : Option String}
    (henrich : enrichOutboxDelivery createdAt trace = .ok trace') : TraceOf e attempt trace' := by
  cases createdAt with
  | none =>
      cases henrich
      exact h
  | some text =>
      obtain ⟨durations, stamps, -, hstamps, hall, -⟩ := h.parts
      rw [enrichOutboxDelivery, hstamps] at henrich
      cases henrich
      exact h.set_stamps hstamps (all_setDefault hall) (filter_setDefault (isCloudStamp_enqueued _))

/-- The beginning of an attempt counts it. -/
theorem TraceOf.sending (h : TraceOf e attempt trace) {createdAt : String} {attemptedAt : DateTime}
    (hsending : sendingTelemetry (.json (.obj trace)) createdAt attemptedAt = .ok trace') :
    TraceOf e (min (attempt + 1) maxDeliveryAttempt) trace' := by
  have hbounds : 0 ≤ min (attempt + 1) maxDeliveryAttempt ∧
      min (attempt + 1) maxDeliveryAttempt ≤ maxDeliveryAttempt := by
    have hlow := h.bounds.1
    have hmax : (0 : Int) ≤ maxDeliveryAttempt := by decide
    omega
  obtain ⟨durations, stamps, hdurations, hstamps, hall, -⟩ := h.parts
  have hdelivery := h.set_delivery hbounds "sending"
  have hstamps' : dictOf (Fields.get? (Fields.set trace "delivery"
      (deliveryOf (min (attempt + 1) maxDeliveryAttempt) "sending")) "stage_timestamps") =
        .ok stamps := by
    rw [Fields.get?_set_ne (by decide), hstamps]
  rw [sendingTelemetry, h.decodes] at hsending
  simp only [bind, Except.bind, h.telemetryAttempt, hstamps'] at hsending
  refine (hdelivery.set_stamps hstamps' ?_ ?_).setDuration (.inl rfl) hsending
  · exact all_erase (all_set (all_setDefault hall))
  · rw [filter_erase isCloudStamp_acknowledged, filter_set (isCloudStamp_started _),
      filter_setDefault (isCloudStamp_enqueued _)]

/-- The end of an attempt does not. -/
theorem TraceOf.settled (h : TraceOf e attempt trace) {state : String}
    {completedAt : Option DateTime}
    (hsettled : settledTelemetry (.json (.obj trace)) state completedAt = .ok trace') :
    TraceOf e attempt trace' := by
  obtain ⟨durations, stamps, hdurations, hstamps, hall, -⟩ := h.parts
  have hdelivery := h.set_delivery h.bounds state
  have hstamps' : dictOf (Fields.get? (Fields.set trace "delivery" (deliveryOf attempt state))
      "stage_timestamps") = .ok stamps := by
    rw [Fields.get?_set_ne (by decide), hstamps]
  rw [settledTelemetry, h.decodes] at hsettled
  simp only [bind, Except.bind, h.telemetryAttempt] at hsettled
  cases completedAt with
  | none =>
      cases hsettled
      exact hdelivery
  | some completedAt =>
      dsimp only at hsettled
      split at hsettled
      next =>
        cases hsettled
        exact hdelivery
      next =>
        simp only [hstamps'] at hsettled
        have hacknowledged := hdelivery.set_stamps hstamps'
          (@all_set _ _ (timestamp completedAt) hall)
          (filter_set (isCloudStamp_acknowledged _))
        split at hsettled
        next =>
          cases hsettled
          exact hacknowledged
        next => exact hacknowledged.setDuration (.inr rfl) hsettled

end Delivery

end GateController
