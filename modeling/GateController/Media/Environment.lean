import GateController.Data.Lines
import GateController.Data.Utf8

/-!
# Environment files

A file of assignments, one to a line, and the checks on what is assigned.  The functions of
the standard library that take URLs, addresses and numbers apart are given.
-/

namespace GateController

open Data

namespace MediaConfig

/-- What `urlsplit` makes of a URL. -/
structure SplitUrl where
  scheme : String
  hostname : Option String
  /-- The port, if it is there.  Without a value, reading it raises. -/
  port : Option (Option Nat)
  path : String
  fragment : String

/-- What `ipaddress.ip_address` makes of an address. -/
structure IpAddress where
  text : String
  isUnspecified : Bool
  isLoopback : Bool
  isMulticast : Bool
  isLinkLocal : Bool
  isReserved : Bool
  isPrivate : Bool

/-- The functions of the standard library that are given.  Those without a value raise
`ValueError`. -/
structure Library where
  urlsplit : String → Option SplitUrl
  ipAddress : String → Option IpAddress
  int : String → Option Int
  /-- A decimal digit of any script, `\d`. -/
  isDecimal : Char → Bool
  isDecimal_not_space : ∀ c, isDecimal c = true → Text.isSpace c = false

/-- What is assigned, in the order of the file. -/
abbrev Values := List (String × String)

/-- A file.  It is trusted if its owner and its mode are, and those of its directory. -/
structure File where
  body : List UInt8
  regular : Bool := true
  trusted : Bool := true
deriving DecidableEq

/-! ## Reading -/

/-- `_MAX_CONFIG_BYTES`. -/
def maxConfigBytes : Nat := 16 * 1024

/-- `_KEY.fullmatch`. -/
def matchesKey : List Char → Bool
  | [] => false
  | first :: rest =>
      first.isUpper && rest.all fun c => c.isUpper || c.isDigit || c == '_'

/-- The assignment on a line. -/
def parseLine (line : List Char) : Except String (String × String) :=
  if line.isEmpty || line.any Text.isSpace then
    .error "environment has whitespace or an empty line"
  else
    match Lines.partition '=' line with
    | (key, some value) =>
        if !matchesKey key || value.isEmpty then
          .error "environment has an invalid assignment"
        else .ok (String.ofList key, String.ofList value)
    | (_, none) => .error "environment has an invalid assignment"

/-- The loop over the lines, with what was assigned so far. -/
def parseLines (values : Values) : List (List Char) → Except String Values
  | [] => .ok values
  | line :: rest =>
      match parseLine line with
      | .error message => .error message
      | .ok (key, value) =>
          if key ∈ values.map Prod.fst then .error "environment has a duplicate assignment"
          else parseLines (values ++ [(key, value)]) rest

/-- The text of an environment. -/
def parseText (text : List Char) : Except String Values :=
  if text.any (· == '\r') || text.getLast? != some '\n' then
    .error "environment must use newline-terminated assignments"
  else parseLines [] ((Lines.splitLines text).map Prod.fst)

/-- `parse_trusted_environment`. -/
def parseTrustedEnvironment (file : Option File) : Except String Values :=
  match file with
  | none => .error "trusted file is inaccessible"
  | some file =>
      if !file.regular || !file.trusted || file.body.isEmpty ||
          file.body.length > maxConfigBytes then
        .error "trusted file must be owner-only and bounded"
      else
        match Utf8.decode file.body with
        | none => .error "environment must be UTF-8"
        | some text => parseText text.toList

/-! ## Keys -/

/-- `_AUTH_KEYS`. -/
def authKeys : List String :=
  ["GATE_MEDIA_HMAC_SECRET", "GATE_MEDIA_VIDEO_CONFIGURED", "GATE_MEDIA_VIDEO_VERIFIED",
    "GATE_MEDIA_LISTEN_CONFIGURED", "GATE_MEDIA_LISTEN_VERIFIED",
    "GATE_MEDIA_TALKBACK_CONFIGURED"]

/-- `_GATEWAY_STATIC_KEY_ORDER`. -/
def gatewayStaticKeyOrder : List String :=
  ["MTX_PATHS_CAMERA_SOURCE", "MTX_PATHS_CLEAR_SOURCE", "MTX_WEBRTCLOCALUDPADDRESS",
    "MTX_WEBRTCLOCALTCPADDRESS", "MTX_WEBRTCADDITIONALHOSTS",
    "MTX_WEBRTCICESERVERS2_0_CLIENTONLY"]

/-- `_RUNTIME_TURN_KEY_ORDER`. -/
def runtimeTurnKeyOrder : List String :=
  ["MTX_WEBRTCICESERVERS2_0_URL", "MTX_WEBRTCICESERVERS2_0_USERNAME",
    "MTX_WEBRTCICESERVERS2_0_PASSWORD"]

/-- `_GATEWAY_KEYS`. -/
def gatewayKeys : List String := gatewayStaticKeyOrder ++ runtimeTurnKeyOrder

/-- `_TURN_KEYS`. -/
def turnKeys : List String := ["TURN_KEY_ID", "TURN_KEY_API_TOKEN"]

/-- `set(values) == keys`. -/
def hasKeys (values : Values) (keys : List String) : Bool :=
  decide (values.map Prod.fst ⊆ keys ∧ keys ⊆ values.map Prod.fst)

/-- `values[key]`, of a key that is there. -/
def get (values : Values) (key : String) : String := (values.lookup key).getD ""

/-- `if not condition: raise MediaConfigError(message)`. -/
def require (condition : Bool) (message : String) : Except String Unit :=
  if condition then .ok () else .error message

/-- `_validate_effective_values`. -/
def validateEffectiveValues (values : Values) : Except String Unit :=
  require (values.all fun pair => pair.2 != "" && !pair.1.toList.any Text.isSpace &&
    !pair.2.toList.any Text.isSpace) "effective environment values are invalid"

/-- `len(value.encode("utf-8"))`. -/
def byteLength (value : String) : Nat := (Utf8.encode value).length

/-! ## Hosts, sources and relays -/

/-- An address that is not to be reached. -/
def IpAddress.isUnreachable (address : IpAddress) : Bool :=
  address.isUnspecified || address.isLoopback || address.isMulticast || address.isLinkLocal ||
    address.isReserved

/-- A label of a host name. -/
def isLabel (label : List Char) : Bool :=
  match label with
  | [] => false
  | first :: _ =>
      decide (label.length ≤ 63) && first.isAlphanum && (label.getLast?.any Char.isAlphanum) &&
        label.all fun c => c.isAlphanum || c == '-'

/-- `_validate_host`. -/
def validateHost (lib : Library) (host : String) (allowPrivate : Bool) : Except String Unit :=
  match lib.ipAddress host with
  | none =>
      require (Text.lower host != "localhost" && decide (host.length ≤ 253) &&
        (host.toList.splitOn '.').all isLabel) "network host is invalid"
  | some address =>
      require (!(address.isUnreachable || !allowPrivate && address.isPrivate))
        "network host is invalid"

/-- `_validate_rtsp_source`. -/
def validateRtspSource (lib : Library) (value : String) : Except String Unit :=
  match lib.urlsplit value with
  | none => .error "gateway source is not a valid RTSP URL"
  | some parsed =>
      match parsed.port, parsed.hostname with
      | some port, some hostname => do
          require (!((parsed.scheme != "rtsp" && parsed.scheme != "rtsps") || hostname == "" ||
            parsed.fragment != "" || parsed.path == "" || parsed.path == "/" ||
            port.any fun port => !(1 ≤ port && port ≤ 65535)))
            "gateway source is not a valid RTSP URL"
          validateHost lib hostname true
      | _, _ => .error "gateway source is not a valid RTSP URL"

/-- The host and the port of a listener, as they are written. -/
def splitIceBind (lib : Library) (value : List Char) : Option (List Char × List Char) :=
  match value with
  | '[' :: rest =>
      let host := rest.takeWhile (· != ']')
      match rest.dropWhile (· != ']') with
      | ']' :: ':' :: port =>
          if host.isEmpty || port.isEmpty || port.length > 5 || !port.all lib.isDecimal then none
          else some (host, port)
      | _ => none
  | _ =>
      match value.splitOn ':' with
      | [host, port] => some (host, port)
      | _ => none

/-- `_parse_ice_bind`. -/
def parseIceBind (lib : Library) (value : String) : Except String (String × Int) :=
  match splitIceBind lib value.toList with
  | none => .error "ICE bind must be an exact IP and port"
  | some (host, portText) =>
      match lib.ipAddress (String.ofList host), lib.int (String.ofList portText) with
      | some address, some port => do
          require (!(!(1 ≤ port && port ≤ 65535) || address.isUnreachable))
            "ICE bind is not remotely reachable"
          return (address.text, port)
      | _, _ => .error "ICE bind must be an exact IP and port"

/-- The scheme, the host, the port and the rest of a relay's URL.  The two forms of
`_TURN_URL` differ in their digits and in what may be the rest. -/
def matchTurnUrl (isDigit : Char → Bool) (url : List Char) :
    Option (List Char × List Char × List Char × List Char) :=
  let scheme := url.takeWhile (· != ':')
  if scheme ≠ "turn".toList ∧ scheme ≠ "turns".toList then none
  else
    match url.dropWhile (· != ':') with
    | ':' :: '[' :: rest =>
        let inside := rest.takeWhile fun c => c.isDigit || ('a' ≤ c && c ≤ 'f') ||
          ('A' ≤ c && c ≤ 'F') || c == ':' || c == '.'
        match rest.drop inside.length with
        | ']' :: ':' :: rest =>
            let port := rest.takeWhile isDigit
            if inside.isEmpty || port.isEmpty || port.length > 5 then none
            else some (scheme, '[' :: inside ++ [']'], port, rest.drop port.length)
        | _ => none
    | ':' :: rest =>
        let host := rest.takeWhile fun c => c.isAlphanum || c == '.' || c == '-'
        match rest.drop host.length with
        | ':' :: rest =>
            let port := rest.takeWhile isDigit
            if host.isEmpty || port.isEmpty || port.length > 5 then none
            else some (scheme, host, port, rest.drop port.length)
        | _ => none
    | _ => none

/-- `_validate_turn_url`. -/
def validateTurnUrl (lib : Library) (value : String) : Except String Unit :=
  match matchTurnUrl Char.isDigit value.toList with
  | none => .error "TURN URL is invalid"
  | some (_, rawHost, portText, rest) => do
      require (rest == [] || rest == "?transport=udp".toList || rest == "?transport=tcp".toList)
        "TURN URL is invalid"
      let host :=
        match rawHost with
        | '[' :: inside => inside.dropLast
        | _ => rawHost
      require ((lib.int (String.ofList portText)).any fun port => 1 ≤ port && port ≤ 65535)
        "TURN URL is invalid"
      validateHost lib (String.ofList host) true

/-! ## Whole environments -/

/-- `validate_auth_environment`. -/
def validateAuthEnvironment (values : Values) : Except String Values := do
  validateEffectiveValues values
  require (hasKeys values authKeys) "auth environment has missing or forbidden keys"
  let secret := byteLength (get values "GATE_MEDIA_HMAC_SECRET")
  require (32 ≤ secret && secret ≤ 256) "HMAC secret must be 32 to 256 bytes"
  require (authKeys.all fun key => key == "GATE_MEDIA_HMAC_SECRET" ||
    get values key == "true" || get values key == "false")
    "capability flags must be exact booleans"
  require (!(get values "GATE_MEDIA_VIDEO_VERIFIED" == "true" &&
    get values "GATE_MEDIA_VIDEO_CONFIGURED" != "true")) "verified video must be configured"
  require (!(get values "GATE_MEDIA_LISTEN_VERIFIED" == "true" &&
    get values "GATE_MEDIA_LISTEN_CONFIGURED" != "true")) "verified listen must be configured"
  return values

/-- `validate_gateway_static_environment`. -/
def validateGatewayStaticEnvironment (lib : Library) (values : Values) :
    Except String Values := do
  validateEffectiveValues values
  require (hasKeys values gatewayStaticKeyOrder)
    "static gateway environment has missing or forbidden keys"
  validateRtspSource lib (get values "MTX_PATHS_CAMERA_SOURCE")
  validateRtspSource lib (get values "MTX_PATHS_CLEAR_SOURCE")
  require (get values "MTX_PATHS_CAMERA_SOURCE" != get values "MTX_PATHS_CLEAR_SOURCE")
    "fluent and clear camera sources must be distinct"
  let udp ← parseIceBind lib (get values "MTX_WEBRTCLOCALUDPADDRESS")
  let tcp ← parseIceBind lib (get values "MTX_WEBRTCLOCALTCPADDRESS")
  require (udp.1 == tcp.1) "ICE listeners must use the same reachable address"
  let advertisedHost := get values "MTX_WEBRTCADDITIONALHOSTS"
  match lib.ipAddress advertisedHost with
  | none => throw "advertised ICE host must be one exact IP"
  | some address => do
      require (!(address.text != advertisedHost || address.isUnreachable ||
        advertisedHost != udp.1)) "advertised ICE host must match the listener address"
      require (get values "MTX_WEBRTCICESERVERS2_0_CLIENTONLY" == "false")
        "TURN must be available to MediaMTX and clients"
      return values

/-- `validate_runtime_turn_environment`. -/
def validateRuntimeTurnEnvironment (lib : Library) (values : Values) : Except String Values := do
  validateEffectiveValues values
  require (hasKeys values runtimeTurnKeyOrder)
    "runtime TURN environment has missing or forbidden keys"
  validateTurnUrl lib (get values "MTX_WEBRTCICESERVERS2_0_URL")
  require (["MTX_WEBRTCICESERVERS2_0_USERNAME", "MTX_WEBRTCICESERVERS2_0_PASSWORD"].all fun key =>
    1 ≤ byteLength (get values key) && byteLength (get values key) ≤ 256)
    "TURN credentials must be 1 to 256 bytes"
  return values

/-- The values of the keys, in the order of the keys. -/
def select (values : Values) (keys : List String) : Values :=
  keys.map fun key => (key, get values key)

/-- `validate_gateway_environment`. -/
def validateGatewayEnvironment (lib : Library) (values : Values) : Except String Values := do
  validateEffectiveValues values
  require (hasKeys values gatewayKeys) "gateway environment has missing or forbidden keys"
  let _ ← validateGatewayStaticEnvironment lib (select values gatewayStaticKeyOrder)
  let _ ← validateRuntimeTurnEnvironment lib (select values runtimeTurnKeyOrder)
  return values

/-- `validate_split_gateway_environment`. -/
def validateSplitGatewayEnvironment (lib : Library) (static runtime : Values) :
    Except String Values := do
  let selected ← validateGatewayStaticEnvironment lib static
  let runtime ← validateRuntimeTurnEnvironment lib runtime
  validateGatewayEnvironment lib (selected ++ runtime)

/-- A key of the TURN service, `_TURN_KEY_ID.fullmatch`. -/
def matchesTurnKeyId (value : List Char) : Bool :=
  decide (1 ≤ value.length ∧ value.length ≤ 128) &&
    value.all fun c => c.isAlphanum || c == '_' || c == '-'

/-- `validate_turn_environment`. -/
def validateTurnEnvironment (values : Values) : Except String Values := do
  validateEffectiveValues values
  require (hasKeys values turnKeys) "TURN environment has missing or forbidden keys"
  require (matchesTurnKeyId (get values "TURN_KEY_ID").toList) "TURN key ID has an invalid format"
  require (turnKeys.all fun key => byteLength (get values key) ≤ 256)
    "TURN credential values must be at most 256 bytes"
  return values

end MediaConfig

end GateController
