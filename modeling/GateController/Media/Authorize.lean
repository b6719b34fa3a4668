import GateController.Media.Token

/-!
# The authorisation sidecar

`authorize_body`: decode a request, check its fields, and let a local RTSP operation or a
viewer with a token through.
-/

namespace GateController

open Data

namespace MediaAuth

/-- `LOOPBACK_HOST`. -/
def loopbackHost : String := "127.0.0.1"

/-- `MAX_REQUEST_BYTES`. -/
def maxRequestBytes : Nat := 8 * 1024

/-- `_ALLOWED_FIELDS`. -/
def allowedFields : List String :=
  ["user", "password", "token", "ip", "action", "path", "protocol", "id", "query", "userAgent"]

/-- `isinstance(value, str)`. -/
def isStr : Option Document → Bool
  | some (.str _) => true
  | _ => false

/-- Whether a value counts as true. -/
def isTrue : Option Document → Bool
  | none | some .null => false
  | some (.bool b) => b
  | some (.int n) => n != 0
  | some (.float value) => value != some 0
  | some (.str s) => s != ""
  | some (.arr items) => !items.isEmpty
  | some (.obj pairs) => !pairs.isEmpty

/-- `_allows_local_rtsp`. -/
def allowsLocalRtsp (payload : Document.Pairs) : Bool :=
  if !isText (payload.lookup "protocol") "rtsp" || !isText (payload.lookup "ip") loopbackHost then
    false
  else if ["user", "password", "token", "query"].any fun field => isTrue (payload.lookup field) then
    false
  else
    [("read", "camera"), ("read", "clear"), ("publish", "gate")].any fun operation =>
      isText (payload.lookup "action") operation.1 && isText (payload.lookup "path") operation.2

/-- The token without `Bearer ` in front. -/
def withoutBearer (token : String) : String :=
  if "Bearer ".toList.isPrefixOf token.toList then
    String.ofList (token.toList.drop "Bearer ".length)
  else token

/-- `_allows_viewer_read`. -/
def allowsViewerRead (given : Given) (payload : Document.Pairs) (secret : String) (now : Int) :
    Except MediaError Bool :=
  match payload.lookup "token" with
  | some (.str token) =>
      if token = "" then .ok false
      else
        let token := withoutBearer token
        if token = "" then .ok false
        else if !isText (payload.lookup "action") "read" ||
            !isText (payload.lookup "path") "gate" then
          .ok false
        else if (payload.lookup "protocol").isSome &&
            !isText (payload.lookup "protocol") "webrtc" then
          .ok false
        else
          match validateMediaToken given token secret now "primary" with
          | .ok _ => .ok true
          | .error .tokenValidation => .ok false
          | .error x => .error x
  | _ => .ok false

/-- `_allows_request`. -/
def allowsRequest (given : Given) (payload : Document.Pairs) (secret : String) (now : Int) :
    Except MediaError Bool :=
  if payload.any fun pair => !isStr (payload.lookup pair.1) then .ok false
  else if allowsLocalRtsp payload then .ok true
  else allowsViewerRead given payload secret now

/-- `authorize_body`. -/
def authorizeBody (given : Given) (body : List UInt8) (secret : String) (now : Int) :
    Except MediaError Nat :=
  if body.length > maxRequestBytes then .ok 401
  else
    match loadBytes given body with
    | .ok (.obj payload) =>
        if !hasKeys payload allowedFields then .ok 401
        else
          (allowsRequest given payload secret now).map fun allowed => if allowed then 200 else 401
    | .ok _ => .ok 401
    | .error .recursion => .error .recursion
    | .error _ => .ok 401

end MediaAuth

end GateController
