import GateController.Data.Base64
import GateController.Data.Document
import GateController.Data.Utf8

/-!
# The media-session token

`validate_media_token`: split the token, check the signature over its first two parts,
decode both, and check the header and the claims.  HMAC-SHA256 and the JSON reader are
given.
-/

namespace GateController

open Data

namespace MediaAuth

/-- The exceptions.  `TokenValidationError` is a `ValueError`, and so are the errors of
decoding; `RecursionError` is not. -/
inductive MediaError where
  | tokenValidation
  | value
  | recursion
deriving DecidableEq

/-- How a reader of JSON comes to an end: with a document, at an error, or too deep, after
these objects. -/
inductive Scan where
  | document (d : Document)
  | malformed
  | tooDeep (completed : List Document.Pairs)

/-- The functions of the standard library that are given. -/
structure Given where
  /-- `hmac.new(key, message, sha256).digest()`. -/
  hmacSha256 : List UInt8 → List UInt8 → List UInt8
  /-- `json.loads`, as far as it goes without the hook. -/
  scan : String → Scan

/-- `encode("ascii")` of ASCII text. -/
def encodeAscii (text : List Char) : List UInt8 := text.map fun c => .ofNat c.toNat

/-- `if not condition: raise TokenValidationError`. -/
def require (condition : Bool) : Except MediaError Unit :=
  if condition then .ok () else .error .tokenValidation

/-! ## Decoding -/

/-- `_unique_object`: the pairs, unless a name comes again. -/
def uniqueObject (pairs : Document.Pairs) : Option Document.Pairs :=
  go [] pairs
where
  /-- The loop over the pairs, with the result so far. -/
  go (result : Document.Pairs) : Document.Pairs → Option Document.Pairs
    | [] => some result
    | pair :: rest =>
        if pair.1 ∈ result.map Prod.fst then none else go (result ++ [pair]) rest

/-- `json.loads(text, object_pairs_hook=_unique_object)`.  The hook is called as soon as an
object is complete. -/
def loads (given : Given) (text : String) : Except MediaError Document :=
  match given.scan text with
  | .document d =>
      match d.readWith uniqueObject with
      | some d => .ok d
      | none => .error .value
  | .malformed => .error .value
  | .tooDeep completed =>
      if completed.any fun pairs => (uniqueObject pairs).isNone then .error .value
      else .error .recursion

/-- `json.loads(raw.decode("utf-8"), object_pairs_hook=_unique_object)`. -/
def loadBytes (given : Given) (raw : List UInt8) : Except MediaError Document :=
  match Utf8.decode raw with
  | none => .error .value
  | some text => loads given text

/-- A character of `_TOKEN_PART`. -/
def isTokenChar (c : Char) : Bool := c.isAlphanum || c == '_' || c == '-'

/-- `_TOKEN_PART.fullmatch`. -/
def isTokenPart (part : List Char) : Bool := !part.isEmpty && part.all isTokenChar

/-- `_decode_base64url`. -/
def decodeBase64url (value : List Char) : Except MediaError (List UInt8) := do
  require (isTokenPart value && value.length % 4 != 1)
  match Base64.b64decode (value ++ List.replicate (Base64.padding value.length) '=') with
  | none => throw .tokenValidation
  | some decoded =>
      let canonical := Base64.unpadded (Base64.urlsafeB64encode decoded)
      require (value == canonical)
      return decoded

/-- `_decode_json_part`. -/
def decodeJsonPart (given : Given) (value : List Char) : Except MediaError Document :=
  match decodeBase64url value >>= loadBytes given with
  | .ok d => .ok d
  | .error .recursion => .error .recursion
  | .error _ => .error .tokenValidation

/-! ## Checking -/

/-- `_HEADER_KEYS`. -/
def headerKeys : List String := ["alg", "typ"]

/-- `_CLAIM_KEYS`. -/
def claimKeys : List String :=
  ["v", "sub", "controller", "path", "actions", "iat", "exp", "nonce"]

/-- `_MAX_SESSION_SECONDS`. -/
def maxSessionSeconds : Int := 60

/-- `set(pairs) == keys`. -/
def hasKeys (pairs : Document.Pairs) (keys : List String) : Bool :=
  decide (pairs.map Prod.fst ⊆ keys ∧ keys ⊆ pairs.map Prod.fst)

/-- `value == text`. -/
def isText (value : Option Document) (text : String) : Bool :=
  match value with
  | some (.str s) => s == text
  | _ => false

/-- `value == 1`. -/
def isOne : Option Document → Bool
  | some (.int n) => n == 1
  | some (.float (some q)) => q == 1
  | some (.bool b) => b
  | _ => false

/-- `isinstance(value, bool)`. -/
def isBool : Option Document → Bool
  | some (.bool _) => true
  | _ => false

/-- `value == ["read"]`. -/
def isReadOnly : Option Document → Bool
  | some (.arr [.str s]) => s == "read"
  | _ => false

/-- A character of `_BOUNDED_ID` after the first. -/
def isIdChar (c : Char) : Bool :=
  c.isAlphanum || c == '.' || c == '_' || c == ':' || c == '@' || c == '-'

/-- `_BOUNDED_ID.fullmatch`. -/
def matchesBoundedId : List Char → Bool
  | [] => false
  | first :: rest => first.isAlphanum && decide (rest.length ≤ 127) && rest.all isIdChar

/-- `_is_bounded_id`. -/
def isBoundedId : Option Document → Bool
  | some (.str s) => matchesBoundedId s.toList
  | _ => false

/-- `_validate_claims`. -/
def validateClaims (claims : Document.Pairs) (now : Int) (controller : String) :
    Except MediaError Unit := do
  require (isOne (claims.lookup "v") && !isBool (claims.lookup "v"))
  require (isBoundedId (claims.lookup "sub") && isBoundedId (claims.lookup "nonce"))
  require (isText (claims.lookup "controller") controller && isText (claims.lookup "path") "gate")
  require (isReadOnly (claims.lookup "actions"))
  match claims.lookup "iat", claims.lookup "exp" with
  | some (.int issuedAt), some (.int expiresAt) => do
      require (!(issuedAt > now || expiresAt ≤ now || expiresAt ≤ issuedAt))
      require (!(expiresAt - issuedAt > maxSessionSeconds))
  | _, _ => throw .tokenValidation

/-- The checks on the decoded header and claims. -/
def validateParts (header claims : Document) (now : Int) (controller : String) :
    Except MediaError Document.Pairs :=
  match header with
  | .obj header => do
      require (hasKeys header headerKeys)
      require (isText (header.lookup "alg") "HS256" && isText (header.lookup "typ") "JWT")
      match claims with
      | .obj claims => do
          require (hasKeys claims claimKeys)
          validateClaims claims now controller
          return claims
      | _ => throw .tokenValidation
  | _ => throw .tokenValidation

/-- `validate_media_token`. -/
def validateMediaToken (given : Given) (token secret : String) (now : Int)
    (controller : String) : Except MediaError Document.Pairs := do
  require (secret != "")
  match token.toList.splitOn '.' with
  | [first, second, third] => do
      require (isTokenPart first && isTokenPart second && isTokenPart third)
      let expected := given.hmacSha256 (Utf8.encode secret) (encodeAscii (first ++ '.' :: second))
      let supplied ← decodeBase64url third
      require (supplied == expected)
      let header ← decodeJsonPart given first
      let claims ← decodeJsonPart given second
      validateParts header claims now controller
  | _ => throw .tokenValidation

end MediaAuth

end GateController
