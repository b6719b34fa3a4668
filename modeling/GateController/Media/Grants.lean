import GateController.Media.Acceptance
import GateController.Media.Authorize
import Mathlib.Data.List.Nodup

/-!
# Which requests are let through

A request is answered with 200 or 401, and with 200 only for a local RTSP operation
without credentials or for a viewer with a token.  The one way to raise is a text that is
nested too deep for the reader: the body itself, or a part of a signed token.
-/

namespace GateController

open Data

namespace MediaAuth

variable {given : Given} {body : List UInt8} {secret : String} {now : Int}
  {payload : Document.Pairs}

/-! ## What is let through -/

/-- The body is a request: an object of texts under the ten names. -/
structure Requests (given : Given) (body : List UInt8) (payload : Document.Pairs) : Prop where
  size : body.length ≤ 8 * 1024
  denotes : Denotes given body (.obj payload)
  names : ∀ name, name ∈ payload.map Prod.fst ↔ name ∈ allowedFields
  texts : ∀ pair ∈ payload, ∃ text, pair.2 = .str text

/-- An RTSP operation from the host itself, without credentials. -/
structure LocalRtsp (payload : Document.Pairs) : Prop where
  protocol : payload.lookup "protocol" = some (.str "rtsp")
  ip : payload.lookup "ip" = some (.str "127.0.0.1")
  empty : ∀ field ∈ ["user", "password", "token", "query"],
    payload.lookup field = some (.str "")
  operation : ∃ operation ∈ [("read", "camera"), ("read", "clear"), ("publish", "gate")],
    payload.lookup "action" = some (.str operation.1) ∧
    payload.lookup "path" = some (.str operation.2)

/-- A viewer who shows this token. -/
structure Shows (payload : Document.Pairs) (token : String) : Prop where
  protocol : payload.lookup "protocol" = some (.str "webrtc")
  action : payload.lookup "action" = some (.str "read")
  path : payload.lookup "path" = some (.str "gate")
  token : payload.lookup "token" = some (.str token) ∨
    payload.lookup "token" = some (.str ("Bearer " ++ token))

/-- The body is a request that is let through. -/
def Granted (given : Given) (body : List UInt8) (secret : String) (now : Int) : Prop :=
  ∃ payload, Requests given body payload ∧ (LocalRtsp payload ∨
    ∃ token claims, Shows payload token ∧
      validateMediaToken given token secret now "primary" = .ok claims)

/-- The body is nested too deep, or it is the request of a viewer whose token is signed and
nested too deep. -/
def DeepRequest (given : Given) (body : List UInt8) (secret : String) : Prop :=
  body.length ≤ 8 * 1024 ∧ Deep given body ∨
    secret ≠ "" ∧ ∃ payload token, Requests given body payload ∧ Shows payload token ∧
      DeepToken given token secret

/-- The request is answered with 200 or 401, and with 200 if and only if it is let
through. -/
structure Answered (given : Given) (body : List UInt8) (secret : String) (now : Int) : Prop where
  total : authorizeBody given body secret now = .ok 200 ∨
    authorizeBody given body secret now = .ok 401
  granted : authorizeBody given body secret now = .ok 200 ↔ Granted given body secret now

/-! ## The fields of a request -/

theorem lookup_of_mem {pairs : Document.Pairs} {name : String}
    (h : name ∈ pairs.map Prod.fst) : ∃ value, pairs.lookup name = some value := by
  cases hlookup : pairs.lookup name with
  | some value => exact ⟨value, rfl⟩
  | none =>
      obtain ⟨pair, hmem, rfl⟩ := List.mem_map.1 h
      have hne := List.lookup_eq_none_iff.1 hlookup pair hmem
      simp at hne

theorem mem_of_lookup {pairs : Document.Pairs} {name : String} {value : Document}
    (h : pairs.lookup name = some value) : (name, value) ∈ pairs := by
  obtain ⟨before, after, rfl, -⟩ := List.lookup_eq_some_iff.1 h
  simp

/-- A name of a request stands for a text. -/
theorem Requests.lookup (h : Requests given body payload) {name : String}
    (hname : name ∈ allowedFields) : ∃ text, payload.lookup name = some (.str text) := by
  obtain ⟨value, hvalue⟩ := lookup_of_mem ((h.names name).2 hname)
  obtain ⟨text, rfl⟩ := h.texts _ (mem_of_lookup hvalue)
  exact ⟨text, hvalue⟩

/-- The check on the types of the values. -/
theorem all_isStr_iff {pairs : Document.Pairs} (hnames : (pairs.map Prod.fst).Nodup) :
    (pairs.any fun pair => !isStr (pairs.lookup pair.1)) = false ↔
      ∀ pair ∈ pairs, ∃ text, pair.2 = .str text := by
  have hlookup : ∀ pair ∈ pairs, pairs.lookup pair.1 = some pair.2 := by
    intro pair hmem
    obtain ⟨value, hvalue⟩ := lookup_of_mem (List.mem_map_of_mem hmem)
    have hsame := List.inj_on_of_nodup_map hnames (mem_of_lookup hvalue) hmem rfl
    rw [hvalue, ← hsame]
  rw [List.any_eq_false]
  constructor
  · intro h pair hmem
    have hstr := h pair hmem
    rw [hlookup pair hmem] at hstr
    cases hvalue : pair.2 with
    | str text => exact ⟨text, rfl⟩
    | null | bool | int | float | arr | obj => simp [hvalue, isStr] at hstr
  · intro h pair hmem
    obtain ⟨text, htext⟩ := h pair hmem
    rw [hlookup pair hmem, htext]
    simp [isStr]

theorem isTrue_str_iff {text : String} : isTrue (some (.str text)) = false ↔ text = "" := by
  simp [isTrue]

theorem allowsLocalRtsp_iff (h : Requests given body payload) :
    allowsLocalRtsp payload = true ↔ LocalRtsp payload := by
  have hempty : ∀ field ∈ ["user", "password", "token", "query"],
      (isTrue (payload.lookup field) = false ↔ payload.lookup field = some (.str "")) := by
    intro field hfield
    have hallowed : field ∈ allowedFields := by
      revert hfield
      revert field
      decide
    obtain ⟨text, htext⟩ := h.lookup hallowed
    rw [htext, isTrue_str_iff]
    simp
  unfold allowsLocalRtsp
  constructor
  · intro hallows
    split at hallows
    next => cases hallows
    next horigin =>
      split at hallows
      next => cases hallows
      next hcredentials =>
        simp only [Bool.or_eq_true, Bool.not_eq_true', not_or, Bool.not_eq_false, isText_iff]
          at horigin
        refine ⟨horigin.1, horigin.2, ?_, ?_⟩
        · intro field hfield
          rw [Bool.not_eq_true, List.any_eq_false] at hcredentials
          exact (hempty field hfield).1 (Bool.not_eq_true _ ▸ hcredentials field hfield)
        · obtain ⟨operation, hmem, hop⟩ := List.any_eq_true.1 hallows
          rw [Bool.and_eq_true, isText_iff, isText_iff] at hop
          exact ⟨operation, hmem, hop⟩
  · intro hlocal
    rw [if_neg, if_neg]
    · obtain ⟨operation, hmem, haction, hpath⟩ := hlocal.operation
      refine List.any_eq_true.2 ⟨operation, hmem, ?_⟩
      rw [Bool.and_eq_true, isText_iff, isText_iff]
      exact ⟨haction, hpath⟩
    · rw [Bool.not_eq_true, List.any_eq_false]
      intro field hfield
      rw [(hempty field hfield).2 (hlocal.empty field hfield)]
      exact Bool.false_ne_true
    · simp [isText_iff.2 hlocal.protocol, isText_iff.2 hlocal.ip, loopbackHost]

/-! ## The token of a viewer -/

theorem space_not_mem_encode (raw : List UInt8) : ' ' ∉ Base64.encode raw := by
  intro hmem
  exact absurd (Base64.encode_subset raw hmem) (by decide)

theorem space_not_mem_part {part : List Char} (h : isTokenPart part = true) : ' ' ∉ part := by
  intro hmem
  rw [isTokenPart, Bool.and_eq_true] at h
  exact absurd (List.all_eq_true.1 h.2 _ hmem) (by decide)

/-- A text without a space is its own token, and that of the text with `Bearer ` before. -/
theorem withoutBearer_iff {text token : String} (h : ' ' ∉ token.toList) :
    withoutBearer text = token ↔ text = token ∨ text = "Bearer " ++ token := by
  have hlength : "Bearer ".length = 7 := rfl
  unfold withoutBearer
  split
  next hopens =>
    obtain ⟨rest, hrest⟩ := List.isPrefixOf_iff_prefix.1 hopens
    constructor
    · rintro rfl
      right
      apply String.toList_inj.1
      rw [← hrest]
      simp [hlength]
    · rintro (rfl | rfl)
      · exact absurd (hrest ▸ List.mem_append_left rest (by decide)) h
      · apply String.toList_inj.1
        simp [hlength]
  next hopens =>
    constructor
    · exact .inl
    · rintro (rfl | rfl)
      · rfl
      · exact absurd (List.isPrefixOf_iff_prefix.2 (by simp)) hopens

/-- An accepted token has no space. -/
theorem space_not_mem_accepted {token controller : String} {claims : Document.Pairs}
    (h : validateMediaToken given token secret now controller = .ok claims) :
    secret ≠ "" ∧ ' ' ∉ token.toList := by
  have hsecret : secret ≠ "" := by
    intro hempty
    rw [validateMediaToken, require_bind_eq_ok_iff, bne_iff_ne] at h
    exact h.1 hempty
  obtain ⟨header, body, signature, -, hcarries, -⟩ := (validateMediaToken_eq_ok_iff hsecret).1 h
  refine ⟨hsecret, ?_⟩
  rw [hcarries.text]
  simp [space_not_mem_encode]

/-- A token that is signed and too deep has no space. -/
theorem DeepToken.space {token : String} (h : DeepToken given token secret) :
    ' ' ∉ token.toList := by
  obtain ⟨header, second, signature, -, hsecond, -, htext, -⟩ := h
  rw [htext]
  simp [space_not_mem_encode, space_not_mem_part hsecond]

/-- The token that a viewer shows is what is left of the field. -/
theorem Shows.withoutBearer {text token : String} (h : Shows payload token)
    (hspace : ' ' ∉ token.toList) (htext : payload.lookup "token" = some (.str text)) :
    withoutBearer text = token := by
  rw [withoutBearer_iff hspace]
  obtain htoken | htoken := h.token
  · cases htext.symm.trans htoken
    exact .inl rfl
  · cases htext.symm.trans htoken
    exact .inr rfl

theorem validateMediaToken_empty (controller : String) :
    validateMediaToken given "" secret now controller = .error .tokenValidation := by
  unfold validateMediaToken
  cases hsecret : secret != "" with
  | false => rfl
  | true => rfl

/-! ## The answer -/

/-- The fields of a viewer, the token apart. -/
def Viewer (payload : Document.Pairs) : Prop :=
  payload.lookup "protocol" = some (.str "webrtc") ∧ payload.lookup "action" = some (.str "read") ∧
    payload.lookup "path" = some (.str "gate")

theorem Shows.viewer {token : String} (h : Shows payload token) : Viewer payload :=
  ⟨h.protocol, h.action, h.path⟩

/-- Who is not a viewer is refused. -/
theorem allowsViewerRead_foreign (h : ¬ Viewer payload) (hrequests : Requests given body payload) :
    allowsViewerRead given payload secret now = .ok false := by
  obtain ⟨protocol, hprotocol⟩ := @Requests.lookup _ _ _ hrequests "protocol" (by decide)
  unfold allowsViewerRead
  split
  next text _ =>
    split
    next => rfl
    next =>
      dsimp only
      split
      next => rfl
      next =>
        split
        next => rfl
        next hplace =>
          split
          next => rfl
          next hweb =>
            rw [Bool.or_eq_true, not_or] at hplace
            simp only [Bool.not_eq_true', Bool.not_eq_false, isText_iff] at hplace
            rw [hprotocol] at hweb
            simp only [Option.isSome_some, Bool.true_and, Bool.not_eq_true', Bool.not_eq_false,
              isText_iff] at hweb
            exact absurd ⟨hprotocol.trans hweb, hplace.1, hplace.2⟩ h
  next => rfl

/-- A viewer is let through if the token is accepted. -/
theorem allowsViewerRead_viewer {text : String} (h : Viewer payload)
    (htext : payload.lookup "token" = some (.str text)) :
    allowsViewerRead given payload secret now =
      match validateMediaToken given (withoutBearer text) secret now "primary" with
      | .ok _ => .ok true
      | .error .tokenValidation => .ok false
      | .error x => .error x := by
  obtain ⟨hprotocol, haction, hpath⟩ := h
  simp only [allowsViewerRead, htext]
  split
  next hempty =>
    subst hempty
    rw [show withoutBearer "" = "" from rfl, validateMediaToken_empty]
  next =>
    split
    next hempty => rw [hempty, validateMediaToken_empty]
    next =>
      refine (if_neg (by simp [isText_iff.2 haction, isText_iff.2 hpath])).trans
        ((if_neg (by simp [isText_iff.2 hprotocol])).trans ?_)
      cases validateMediaToken given (withoutBearer text) secret now "primary" with
      | ok claims => rfl
      | error x =>
          cases x with
          | tokenValidation => rfl
          | value => rfl
          | recursion => rfl

/-- What the check on a viewer comes to. -/
theorem allowsViewerRead_cases (h : Requests given body payload) :
    (allowsViewerRead given payload secret now = .ok true ∧ ∃ token claims,
      Shows payload token ∧ validateMediaToken given token secret now "primary" = .ok claims) ∨
    (allowsViewerRead given payload secret now = .ok false ∧
      (¬ ∃ token claims, Shows payload token ∧
        validateMediaToken given token secret now "primary" = .ok claims) ∧
      ¬ (secret ≠ "" ∧ ∃ token, Shows payload token ∧ DeepToken given token secret)) ∨
    (allowsViewerRead given payload secret now = .error .recursion ∧
      secret ≠ "" ∧ ∃ token, Shows payload token ∧ DeepToken given token secret) := by
  obtain ⟨text, htext⟩ := @Requests.lookup _ _ _ h "token" (by decide)
  by_cases hviewer : Viewer payload
  · have hshows : ∀ token, ' ' ∉ token.toList → withoutBearer text = token →
        Shows payload token := by
      intro token hspace htoken
      refine ⟨hviewer.1, hviewer.2.1, hviewer.2.2, ?_⟩
      obtain rfl | rfl := (withoutBearer_iff hspace).1 htoken
      · exact .inl htext
      · exact .inr htext
    rw [allowsViewerRead_viewer hviewer htext]
    cases hvalid : validateMediaToken given (withoutBearer text) secret now "primary" with
    | ok claims =>
        have hspace := (space_not_mem_accepted hvalid).2
        exact .inl ⟨rfl, _, claims, hshows _ hspace rfl, hvalid⟩
    | error x =>
        obtain rfl | ⟨rfl, hdeep⟩ := validateMediaToken_invalid x hvalid
        · refine .inr (.inl ⟨rfl, ?_, ?_⟩)
          · rintro ⟨token, claims, htoken, haccepted⟩
            rw [htoken.withoutBearer (space_not_mem_accepted haccepted).2 htext, haccepted]
              at hvalid
            cases hvalid
          · rintro ⟨hsecret, token, htoken, hdeep⟩
            rw [htoken.withoutBearer hdeep.space htext, validateMediaToken_deep hsecret hdeep]
              at hvalid
            cases hvalid
        · refine .inr (.inr ⟨rfl, ?_, _, hshows _ hdeep.space rfl, hdeep⟩)
          rintro rfl
          cases hvalid
  · refine .inr (.inl ⟨allowsViewerRead_foreign hviewer h, ?_, ?_⟩)
    · rintro ⟨token, claims, htoken, -⟩
      exact hviewer htoken.viewer
    · rintro ⟨-, token, htoken, -⟩
      exact hviewer htoken.viewer

/-- A body that is a request is answered by the checks on its fields. -/
theorem authorizeBody_of_requests (h : Requests given body payload) :
    authorizeBody given body secret now =
      if allowsLocalRtsp payload then .ok 200
      else (allowsViewerRead given payload secret now).map fun allowed =>
        if allowed then 200 else 401 := by
  have hsize : ¬ body.length > maxRequestBytes := Nat.not_lt.2 h.size
  have hunique : (payload.map Prod.fst).Nodup := by
    obtain ⟨-, -, -, hunique⟩ := h.denotes
    exact (Document.unique_obj_iff.1 hunique).1
  have htexts := (all_isStr_iff hunique).2 h.texts
  rw [authorizeBody, if_neg hsize, loadBytes_eq_ok_iff.2 h.denotes]
  simp only [hasKeys_iff.2 h.names, Bool.not_true, Bool.false_eq_true, if_false, allowsRequest,
    htexts]
  split
  next => rfl
  next => rfl

/-- A body that is not a request is refused, unless it is nested too deep. -/
theorem authorizeBody_of_not_requests (h : ¬ ∃ payload, Requests given body payload) :
    authorizeBody given body secret now = .ok 401 ∧
      ¬ (body.length ≤ 8 * 1024 ∧ Deep given body) ∨
    authorizeBody given body secret now = .error .recursion ∧
      body.length ≤ 8 * 1024 ∧ Deep given body := by
  unfold authorizeBody
  split
  next hsize => exact .inl ⟨rfl, fun hdeep => absurd hdeep.1 (Nat.not_le.2 hsize)⟩
  next hsize =>
    have hle : body.length ≤ 8 * 1024 := Nat.not_lt.1 hsize
    have hshallow : ∀ {r}, loadBytes given body = r → r ≠ .error .recursion →
        ¬ (body.length ≤ 8 * 1024 ∧ Deep given body) := by
      rintro r hr hne ⟨-, hdeep⟩
      exact hne (hr.symm.trans (loadBytes_recursion_iff.2 hdeep))
    split
    next payload hload =>
      refine .inl ⟨?_, hshallow hload (by simp)⟩
      split
      next => rfl
      next hkeys =>
        have hdenotes := loadBytes_eq_ok_iff.1 hload
        have hunique : (payload.map Prod.fst).Nodup := by
          obtain ⟨-, -, -, hunique⟩ := hdenotes
          exact (Document.unique_obj_iff.1 hunique).1
        rw [Bool.not_eq_true', Bool.not_eq_false, hasKeys_iff] at hkeys
        rw [allowsRequest, if_pos]
        · rfl
        · by_contra htexts
          rw [Bool.not_eq_true, all_isStr_iff hunique] at htexts
          exact h ⟨payload, hle, hdenotes, hkeys, htexts⟩
    next _ hload => exact .inl ⟨rfl, hshallow hload (by simp)⟩
    next hload => exact .inr ⟨rfl, hle, loadBytes_recursion_iff.1 hload⟩
    next x hne hload => exact .inl ⟨rfl, hshallow hload (by simpa using hne)⟩

/-- A body denotes one request at most. -/
theorem Requests.unique {other : Document.Pairs} (h : Requests given body payload)
    (h' : Requests given body other) : payload = other := by
  obtain ⟨text, htext, hscan, -⟩ := h.denotes
  obtain ⟨text', htext', hscan', -⟩ := h'.denotes
  cases htext.symm.trans htext'
  cases hscan.symm.trans hscan'
  rfl

/-- A body that denotes a document is not too deep. -/
theorem Requests.not_deep (h : Requests given body payload) : ¬ Deep given body := by
  rintro ⟨text, completed, htext, hscan, -⟩
  obtain ⟨text', htext', hscan', -⟩ := h.denotes
  cases htext.symm.trans htext'
  cases hscan.symm.trans hscan'

/-- Who is let through as the host itself is not a viewer. -/
theorem LocalRtsp.not_viewer (h : LocalRtsp payload) : ¬ Viewer payload := by
  intro hviewer
  have hsame := h.protocol.symm.trans hviewer.1
  simp at hsame

/-- What the answer to a body comes to. -/
theorem authorizeBody_cases (given : Given) (body : List UInt8) (secret : String) (now : Int) :
    (authorizeBody given body secret now = .ok 200 ∧ Granted given body secret now ∧
      ¬ DeepRequest given body secret) ∨
    (authorizeBody given body secret now = .ok 401 ∧ ¬ Granted given body secret now ∧
      ¬ DeepRequest given body secret) ∨
    (authorizeBody given body secret now = .error .recursion ∧ DeepRequest given body secret) := by
  by_cases hrequests : ∃ payload, Requests given body payload
  · obtain ⟨payload, h⟩ := hrequests
    rw [authorizeBody_of_requests h]
    have hlocal := allowsLocalRtsp_iff h
    cases hallows : allowsLocalRtsp payload with
    | true =>
        have hrtsp := hlocal.1 hallows
        refine .inl ⟨rfl, ⟨payload, h, .inl hrtsp⟩, ?_⟩
        rintro (⟨-, hdeep⟩ | ⟨-, payload', token, h', htoken, -⟩)
        · exact h.not_deep hdeep
        · cases h.unique h'
          exact hrtsp.not_viewer htoken.viewer
    | false =>
        rw [if_neg Bool.false_ne_true]
        have hrtsp : ¬ LocalRtsp payload := by
          intro hrtsp
          cases hallows.symm.trans (hlocal.2 hrtsp)
        obtain ⟨hviewer, token, claims, htoken, hvalid⟩ | ⟨hviewer, hnone, hshallow⟩ |
          ⟨hviewer, hsecret, token, htoken, hdeep⟩ := allowsViewerRead_cases h
        · refine .inl ⟨by rw [hviewer]; rfl, ⟨payload, h, .inr ⟨token, claims, htoken, hvalid⟩⟩, ?_⟩
          rintro (⟨-, hdeep⟩ | ⟨hsecret, payload', token', h', htoken', hdeep⟩)
          · exact h.not_deep hdeep
          · cases h.unique h'
            obtain ⟨text, htext⟩ := @Requests.lookup _ _ _ h "token" (by decide)
            have hsame := htoken.withoutBearer (space_not_mem_accepted hvalid).2 htext
            have hsame' := htoken'.withoutBearer hdeep.space htext
            cases hsame.symm.trans hsame'
            cases hvalid.symm.trans (validateMediaToken_deep hsecret hdeep)
        · refine .inr (.inl ⟨by rw [hviewer]; rfl, ?_, ?_⟩)
          · rintro ⟨payload', h', hrtsp' | hshown⟩
            · cases h.unique h'
              exact hrtsp hrtsp'
            · cases h.unique h'
              exact hnone hshown
          · rintro (⟨-, hdeep⟩ | ⟨hsecret, payload', token, h', htoken, hdeep⟩)
            · exact h.not_deep hdeep
            · cases h.unique h'
              exact hshallow ⟨hsecret, token, htoken, hdeep⟩
        · exact .inr (.inr ⟨by rw [hviewer]; rfl, .inr ⟨hsecret, payload, token, h, htoken, hdeep⟩⟩)
  · obtain ⟨hanswer, hshallow⟩ | ⟨hanswer, hdeep⟩ := authorizeBody_of_not_requests hrequests
    · refine .inr (.inl ⟨hanswer, ?_, ?_⟩)
      · rintro ⟨payload, h, -⟩
        exact hrequests ⟨payload, h⟩
      · rintro (hdeep | ⟨-, payload, token, h, -⟩)
        · exact hshallow hdeep
        · exact hrequests ⟨payload, h⟩
    · exact .inr (.inr ⟨hanswer, .inl hdeep⟩)

/-- A request is answered as it should be unless something in it is nested too deep. -/
theorem answered_iff (given : Given) (body : List UInt8) (secret : String) (now : Int) :
    Answered given body secret now ↔ ¬ DeepRequest given body secret := by
  obtain ⟨hanswer, hgranted, hshallow⟩ | ⟨hanswer, hrefused, hshallow⟩ | ⟨hanswer, hdeep⟩ :=
    authorizeBody_cases given body secret now
  · exact iff_of_true ⟨.inl hanswer, iff_of_true hanswer hgranted⟩ hshallow
  · refine iff_of_true ⟨.inr hanswer, iff_of_false ?_ hrefused⟩ hshallow
    intro h
    cases hanswer.symm.trans h
  · refine iff_of_false ?_ (fun h => h hdeep)
    rintro ⟨h | h, -⟩
    · cases hanswer.symm.trans h
    · cases hanswer.symm.trans h

namespace Brackets

/-- A body of opening brackets and nothing else, as long as a body may be. -/
def brackets : List UInt8 := List.replicate 8192 91

/-- A reader that gives up on a thousand opening brackets in a row. -/
def reader : Given where
  hmacSha256 := fun _ _ => []
  scan := fun text =>
    if 1000 ≤ (text.toList.takeWhile (· == '[')).length then .tooDeep [] else .malformed

theorem decode_brackets (n : Nat) :
    Utf8.decode (List.replicate n 91) = some (String.ofList (List.replicate n '[')) := by
  have hencode : (List.replicate n '[').flatMap String.utf8EncodeChar = List.replicate n 91 := by
    induction n with
    | zero => rfl
    | succ n ih =>
        rw [List.replicate_succ, List.replicate_succ, List.flatMap_cons, ih]
        rfl
  rw [← hencode, ← Utf8.encode_ofList, Utf8.decode_encode]

/-- The body raises out of the authorisation. -/
theorem brackets_raise : ¬ Answered reader brackets "0123456789abcdef0123456789abcdef" 0 := by
  rw [answered_iff, not_not]
  refine .inl ⟨by rw [brackets, List.length_replicate], String.ofList (List.replicate 8192 '['), [],
    decode_brackets 8192, ?_, by simp⟩
  have htake : ((String.ofList (List.replicate 8192 '[')).toList.takeWhile (· == '[')).length =
      8192 := by
    rw [String.toList_ofList, List.takeWhile_eq_self_iff.2, List.length_replicate]
    intro c hc
    rw [List.eq_of_mem_replicate hc]
    rfl
  simp only [reader, htake]
  rfl

end Brackets

end MediaAuth

end GateController
