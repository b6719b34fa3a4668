import GateController.Data.Text
import GateController.Media.Authorize
import Mathlib.Data.Rat.Defs
import Mathlib.Algebra.Order.Ring.Rat

/-!
# Media capabilities

The sidecar publishes what the media gateway can do in a small file, and the controller
reports what it finds there.  `capability_snapshot` makes the snapshot from the operator's
settings and the answer of the gateway.  `read_media_capabilities` takes it back, if the file
is well formed and recent, and reports everything as unavailable otherwise.

A reader accepts what a publisher wrote, whatever the settings and the gateway said
(`acceptedSnapshot_document`).
-/

namespace GateController

open Data MediaAuth

namespace MediaCapabilities

/-! ## Values -/

/-- What is known of one feature. -/
structure Capability where
  configured : Bool
  ready : Bool
  verified : Bool
  reason : String
deriving DecidableEq

/-- The features. -/
structure Media where
  video : Capability
  listen : Capability
  talkback : Capability
deriving DecidableEq

/-- What is published. -/
structure Snapshot where
  observedAt : Int
  media : Media
deriving DecidableEq

/-- A capability as a document, its keys in order. -/
def Capability.document (c : Capability) : Document :=
  .obj [("configured", .bool c.configured), ("ready", .bool c.ready), ("reason", .str c.reason),
    ("verified", .bool c.verified)]

def Media.document (m : Media) : Document :=
  .obj [("listen", m.listen.document), ("talkback", m.talkback.document),
    ("video", m.video.document)]

def Snapshot.document (s : Snapshot) : Document :=
  .obj [("media", s.media.document), ("observed_at", .int s.observedAt)]

/-! ## The publisher -/

/-- `_enabled`. -/
def enabled : Option String → Bool
  | none => false
  | some value => Text.lower (Text.strip value) == "true"

/-- `_reason`. -/
def reasonOf (configured ready verified : Bool) : String :=
  if !configured then "not_configured"
  else if !ready then "gateway_unhealthy"
  else if verified then "ready" else "hardware_unverified"

/-- Whether the gateway has the tracks of a feature. -/
structure Readiness where
  video : Bool
  listen : Bool

/-- `_unready_gateway`. -/
def unreadyGateway : Readiness := ⟨false, false⟩

/-- `_MAX_GATEWAY_API_BYTES`. -/
def maxGatewayApiBytes : Nat := 64 * 1024

/-- `_MAX_GATEWAY_PATHS`. -/
def maxGatewayPaths : Nat := 64

/-- `_MAX_TRACKS`. -/
def maxTracks : Nat := 16

/-- `_VIDEO_TRACKS`. -/
def videoTracks : List String :=
  ["AV1", "VP9", "VP8", "H265", "H264", "MPEG-4 Video", "MPEG-1/2 Video", "M-JPEG"]

/-- `_AUDIO_TRACKS`. -/
def audioTracks : List String :=
  ["Opus", "FLAC", "Vorbis", "MPEG-4 Audio", "MPEG-4 Audio LATM", "MPEG-1/2 Audio", "AC-3",
    "Speex", "G726", "G722", "G711", "LPCM"]

/-- `_WEBRTC_AUDIO_TRACKS`. -/
def webrtcAudioTracks : List String := ["Opus", "G722", "G711"]

/-- `_MEDIA_TRACKS`. -/
def mediaTracks : List String := videoTracks ++ audioTracks

/-- `track in tracks` of a text. -/
def isTrackOf (tracks : List String) : Document → Bool
  | .str track => decide (track ∈ tracks)
  | _ => false

/-- `value is True`. -/
def isTrueItself : Option Document → Bool
  | some (.bool b) => b
  | _ => false

/-- The checks on the path of the gate. -/
def pathReadiness (gatePath : Document.Pairs) : Readiness :=
  if !isTrueItself (gatePath.lookup "ready") && !isTrueItself (gatePath.lookup "available") then
    unreadyGateway
  else
    match gatePath.lookup "tracks" with
    | some (.arr tracks) =>
        if tracks.isEmpty || decide (maxTracks < tracks.length) ||
            !tracks.all (isTrackOf mediaTracks) then
          unreadyGateway
        else ⟨tracks.any (isTrackOf videoTracks), tracks.any (isTrackOf webrtcAudioTracks)⟩
    | _ => unreadyGateway

/-- `isinstance(item, dict) and item.get("name") == "gate"`. -/
def isGatePath : Document → Bool
  | .obj item => isText (item.lookup "name") "gate"
  | _ => false

/-- The checks on the decoded answer. -/
def payloadReadiness : Document → Readiness
  | .obj payload =>
      match payload.lookup "items" with
      | some (.arr items) =>
          if items.length > maxGatewayPaths then unreadyGateway
          else
            match items.filter isGatePath with
            | [.obj gatePath] => pathReadiness gatePath
            | _ => unreadyGateway
      | _ => unreadyGateway
  | _ => unreadyGateway

/-- `gateway_status_readiness`. -/
def gatewayStatusReadiness (given : Given) (body : List UInt8) : Except MediaError Readiness :=
  if body.isEmpty || decide (maxGatewayApiBytes < body.length) then .ok unreadyGateway
  else
    match loadBytes given body with
    | .ok payload => .ok (payloadReadiness payload)
    | .error .recursion => .error .recursion
    | .error _ => .ok unreadyGateway

/-- What the gateway answers.  A length that is no number has no value. -/
structure Response where
  status : Int
  contentLength : Option (Option Int)
  body : List UInt8

/-- `_gateway_is_ready`.  There is no response where the request raised. -/
def gatewayIsReady (given : Given) : Option Response → Except MediaError Readiness
  | none => .ok unreadyGateway
  | some response =>
      if response.status ≠ 200 then .ok unreadyGateway
      else
        match response.contentLength with
        | some none => .ok unreadyGateway
        | some (some length) =>
            if length > maxGatewayApiBytes then .ok unreadyGateway
            else gatewayStatusReadiness given (response.body.take (maxGatewayApiBytes + 1))
        | none => gatewayStatusReadiness given (response.body.take (maxGatewayApiBytes + 1))

/-- A feature that the gateway serves. -/
def served (configured ready verified : Bool) : Capability where
  configured := configured
  ready := configured && ready
  verified := configured && ready && verified
  reason := reasonOf configured (configured && ready) (configured && ready && verified)

/-- `capability_snapshot`. -/
def capabilitySnapshot (environment : String → Option String) (gateway : Readiness)
    (now : Int) : Snapshot where
  observedAt := now
  media := {
    video := served (enabled (environment "GATE_MEDIA_VIDEO_CONFIGURED")) gateway.video
      (enabled (environment "GATE_MEDIA_VIDEO_VERIFIED"))
    listen := served (enabled (environment "GATE_MEDIA_LISTEN_CONFIGURED")) gateway.listen
      (enabled (environment "GATE_MEDIA_LISTEN_VERIFIED"))
    talkback := ⟨enabled (environment "GATE_MEDIA_TALKBACK_CONFIGURED"), false, false,
      "hardware_unverified"⟩ }

/-! ## The reader -/

/-- `_REASONS`. -/
def reasons : List String := ["not_configured", "gateway_unhealthy", "hardware_unverified", "ready"]

/-- `_MAX_CAPABILITIES_BYTES`. -/
def maxCapabilitiesBytes : Nat := 8 * 1024

/-- `_false_capability`. -/
def falseCapability (reason : String) : Capability := ⟨false, false, false, reason⟩

/-- `_unavailable`. -/
def unavailable (reason : String) : Media where
  video := falseCapability reason
  listen := falseCapability reason
  talkback := falseCapability "hardware_unverified"

/-- The reason that a feature other than `talkback` must have. -/
def expectedReason (configured ready verified : Bool) : String :=
  if !configured then "not_configured"
  else if !ready then "gateway_unhealthy"
  else if verified then "ready"
  else "hardware_unverified"

/-- The checks on the four values. -/
def coherentValues (feature : String) (configured ready verified : Bool) (reason : String) : Bool :=
  decide (reason ∈ reasons) &&
  !((ready && !configured) || (verified && !ready)) &&
  !(reason == "not_configured" && (configured || ready || verified)) &&
  !(reason == "gateway_unhealthy" && (ready || verified)) &&
  !(reason == "hardware_unverified" && verified) &&
  !(reason == "ready" && !(configured && ready && verified)) &&
  (feature == "talkback" || reason == expectedReason configured ready verified)

/-- `_parse_capability`, without a value where it raises. -/
def parseCapability (feature : String) (value : Option Document) : Option Capability :=
  match value with
  | some (.obj fields) =>
      if !hasKeys fields ["configured", "ready", "verified", "reason"] then none
      else
        match fields.lookup "configured", fields.lookup "ready", fields.lookup "verified",
            fields.lookup "reason" with
        | some (.bool configured), some (.bool ready), some (.bool verified),
            some (.str reason) =>
            if coherentValues feature configured ready verified reason then
              some ⟨configured, ready, verified, reason⟩
            else none
        | _, _, _, _ => none
  | _ => none

/-- The features of a well-formed value. -/
def parseMedia : Option Document → Option Media
  | some (.obj features) =>
      if !hasKeys features ["video", "listen", "talkback"] then none
      else do
        let video ← parseCapability "video" (features.lookup "video")
        let listen ← parseCapability "listen" (features.lookup "listen")
        let talkback ← parseCapability "talkback" (features.lookup "talkback")
        return ⟨video, listen, talkback⟩
  | _ => none

/-- `validated_media_capabilities`. -/
def validatedMediaCapabilities (value : Option Document) : Media :=
  match parseMedia value with
  | none => unavailable "gateway_unhealthy"
  | some parsed =>
      { parsed with
        talkback := ⟨parsed.talkback.configured, false, false, "hardware_unverified"⟩ }

/-- The checks on the decoded file. -/
def acceptedSnapshot (decoded : Document) (now maxAge : ℚ) : Media :=
  match decoded with
  | .obj fields =>
      if !hasKeys fields ["observed_at", "media"] then unavailable "gateway_unhealthy"
      else
        match fields.lookup "observed_at" with
        | some (.int observedAt) =>
            if (observedAt : ℚ) > now || (observedAt : ℚ) < now - maxAge then
              unavailable "gateway_unhealthy"
            else validatedMediaCapabilities (fields.lookup "media")
        | _ => unavailable "gateway_unhealthy"
  | _ => unavailable "gateway_unhealthy"

/-- What opening the file comes to.  The size is what `fstat` says, and the content is what
the reads give until the end of the file. -/
inductive Opened where
  | notFound
  | failed
  | file (regular : Bool) (size : Nat) (content : List UInt8)

/-- `read_media_capabilities`. -/
def readMediaCapabilities (given : Given) (opened : Opened) (now maxAge : ℚ) :
    Except MediaError Media :=
  match opened with
  | .notFound => .ok (unavailable "not_configured")
  | .failed => .ok (unavailable "gateway_unhealthy")
  | .file regular size content =>
      if !regular || size == 0 || decide (maxCapabilitiesBytes < size) ||
          content.length != size then
        .ok (unavailable "gateway_unhealthy")
      else
        match loadBytes given content with
        | .ok decoded => .ok (acceptedSnapshot decoded now maxAge)
        | .error .recursion => .error .recursion
        | .error _ => .ok (unavailable "gateway_unhealthy")

/-! ## What is accepted -/

/-- A capability whose parts agree with each other. -/
structure Coherent (c : Capability) : Prop where
  ready : c.ready = true → c.configured = true
  verified : c.verified = true → c.ready = true
  reason : c.reason = reasonOf c.configured c.ready c.verified

/-- Media that a reader may report: coherent, and never a talkback that is ready. -/
structure Reportable (m : Media) : Prop where
  video : Coherent m.video
  listen : Coherent m.listen
  talkback : m.talkback = ⟨m.talkback.configured, false, false, "hardware_unverified"⟩

theorem expectedReason_eq : expectedReason = reasonOf := rfl

theorem served_coherent (configured ready verified : Bool) :
    Coherent (served configured ready verified) where
  ready h := (Bool.and_eq_true _ _ ▸ h).1
  verified h := (Bool.and_eq_true _ _ ▸ h).1
  reason := rfl

/-- The media of a snapshot may be reported. -/
theorem reportable_snapshot (environment : String → Option String) (gateway : Readiness)
    (now : Int) : Reportable (capabilitySnapshot environment gateway now).media :=
  ⟨served_coherent _ _ _, served_coherent _ _ _, rfl⟩

/-- A coherent capability passes every check. -/
theorem coherentValues_of_coherent {c : Capability} (feature : String) (h : Coherent c) :
    coherentValues feature c.configured c.ready c.verified c.reason = true := by
  obtain ⟨configured, ready, verified, reason⟩ := c
  obtain ⟨hready, hverified, hreason⟩ := h
  dsimp only at hready hverified hreason ⊢
  subst hreason
  unfold coherentValues
  rw [expectedReason_eq, beq_self_eq_true, Bool.or_true, Bool.and_true]
  cases configured with
  | false =>
      cases ready with
      | true => cases hready rfl
      | false =>
          cases verified with
          | true => cases hverified rfl
          | false => rfl
  | true =>
      cases ready with
      | false =>
          cases verified with
          | true => cases hverified rfl
          | false => rfl
      | true => cases verified <;> rfl

theorem parseCapability_document (feature : String) (c : Capability) :
    parseCapability feature (some c.document) =
      if coherentValues feature c.configured c.ready c.verified c.reason then some c else none :=
  rfl

/-- A reader takes back what was published. -/
theorem validated_document {m : Media} (h : Reportable m) :
    validatedMediaCapabilities (some m.document) = m := by
  have htalkback : coherentValues "talkback" m.talkback.configured m.talkback.ready
      m.talkback.verified m.talkback.reason = true := by
    rw [h.talkback]
    cases m.talkback.configured <;> rfl
  have hparse : parseMedia (some m.document) = some m := by
    show (parseCapability "video" (some m.video.document) >>= fun video =>
      parseCapability "listen" (some m.listen.document) >>= fun listen =>
      parseCapability "talkback" (some m.talkback.document) >>= fun talkback =>
      some ⟨video, listen, talkback⟩) = some m
    rw [parseCapability_document, if_pos (coherentValues_of_coherent _ h.video),
      parseCapability_document, if_pos (coherentValues_of_coherent _ h.listen),
      parseCapability_document, if_pos htalkback]
    rfl
  unfold validatedMediaCapabilities
  rw [hparse]
  dsimp only
  rw [← h.talkback]

/-- A snapshot that is read while it is recent. -/
def Recent (observedAt : Int) (now maxAge : ℚ) : Prop :=
  (observedAt : ℚ) ≤ now ∧ now - maxAge ≤ observedAt

theorem acceptedSnapshot_document {s : Snapshot} {now maxAge : ℚ} (h : Reportable s.media)
    (hrecent : Recent s.observedAt now maxAge) :
    acceptedSnapshot s.document now maxAge = s.media := by
  have hnot : ((s.observedAt : ℚ) > now || (s.observedAt : ℚ) < now - maxAge) = false := by
    rw [Bool.or_eq_false_iff, decide_eq_false_iff_not, decide_eq_false_iff_not]
    exact ⟨not_lt.2 hrecent.1, not_lt.2 hrecent.2⟩
  show (if ((s.observedAt : ℚ) > now || (s.observedAt : ℚ) < now - maxAge) then
    unavailable "gateway_unhealthy" else validatedMediaCapabilities (some s.media.document)) = _
  rw [hnot]
  exact validated_document h

/-- A snapshot that is read too early or too late is not reported. -/
theorem acceptedSnapshot_document_cases (s : Snapshot) (now maxAge : ℚ) (h : Reportable s.media) :
    acceptedSnapshot s.document now maxAge = unavailable "gateway_unhealthy" ∨
      Recent s.observedAt now maxAge ∧ acceptedSnapshot s.document now maxAge = s.media := by
  by_cases hrecent : Recent s.observedAt now maxAge
  · exact .inr ⟨hrecent, acceptedSnapshot_document h hrecent⟩
  · refine .inl ?_
    have hout : ((s.observedAt : ℚ) > now || (s.observedAt : ℚ) < now - maxAge) = true := by
      rw [Bool.or_eq_true, decide_eq_true_eq, decide_eq_true_eq]
      by_contra hnot
      rw [not_or, not_lt, not_lt] at hnot
      exact hrecent hnot
    show (if ((s.observedAt : ℚ) > now || (s.observedAt : ℚ) < now - maxAge) then
      unavailable "gateway_unhealthy" else validatedMediaCapabilities (some s.media.document)) = _
    rw [hout]
    rfl

end MediaCapabilities

end GateController
