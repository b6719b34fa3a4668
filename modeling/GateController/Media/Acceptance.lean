import GateController.Media.Token

/-!
# Which tokens are accepted

A token carries three byte strings: a header, a body and the signature of both.  Each part
of the text is the one encoding of its bytes, so the text follows from the bytes.
Decoding and checking either give what the bytes denote or raise one and the same error.
-/

namespace GateController

open Data

namespace MediaAuth

variable {given : Given} {token secret controller : String} {now : Int}

/-! ## What an accepted token is -/

/-- A letter or digit, followed by at most 127 letters, digits and `._:@-`. -/
def BoundedId (id : String) : Prop :=
  ∃ first rest, id.toList = first :: rest ∧ first.isAlphanum = true ∧ rest.length ≤ 127 ∧
    ∀ c ∈ rest, isIdChar c = true

/-- The bytes are the UTF-8 text of the document, which has no name twice in an object. -/
def Denotes (given : Given) (raw : List UInt8) (d : Document) : Prop :=
  ∃ text, Utf8.decode raw = some text ∧ given.scan text = .document d ∧ d.Unique

/-- The header of an accepted token. -/
structure GoodHeader (header : Document.Pairs) : Prop where
  names : ∀ name, name ∈ header.map Prod.fst ↔ name ∈ headerKeys
  alg : header.lookup "alg" = some (.str "HS256")
  typ : header.lookup "typ" = some (.str "JWT")

/-- The claims of an accepted token. -/
structure GoodClaims (claims : Document.Pairs) (now : Int) (controller : String) : Prop where
  names : ∀ name, name ∈ claims.map Prod.fst ↔ name ∈ claimKeys
  version : claims.lookup "v" = some (.int 1) ∨ claims.lookup "v" = some (.float (some 1))
  sub : ∃ id, claims.lookup "sub" = some (.str id) ∧ BoundedId id
  nonce : ∃ id, claims.lookup "nonce" = some (.str id) ∧ BoundedId id
  controller : claims.lookup "controller" = some (.str controller)
  path : claims.lookup "path" = some (.str "gate")
  actions : claims.lookup "actions" = some (.arr [.str "read"])
  window : ∃ issuedAt expiresAt, claims.lookup "iat" = some (.int issuedAt) ∧
    claims.lookup "exp" = some (.int expiresAt) ∧ issuedAt ≤ now ∧ now < expiresAt ∧
    0 < expiresAt - issuedAt ∧ expiresAt - issuedAt ≤ 60

/-- The token is the text of these bytes: three parts, none of them empty, and each the
encoding of its bytes. -/
structure Carries (token : String) (header body signature : List UInt8) : Prop where
  header_ne : header ≠ []
  body_ne : body ≠ []
  signature_ne : signature ≠ []
  text : token.toList = Base64.encode header ++ '.' ::
    (Base64.encode body ++ '.' :: Base64.encode signature)

/-- The token carries a header, claims and the signature of the two, and all is as it
should be. -/
def Accepted (given : Given) (token secret : String) (now : Int) (controller : String)
    (claims : Document.Pairs) : Prop :=
  ∃ header body signature pairs, Carries token header body signature ∧
    signature = given.hmacSha256 (Utf8.encode secret)
      (encodeAscii (Base64.encode header ++ '.' :: Base64.encode body)) ∧
    Denotes given header (.obj pairs) ∧ GoodHeader pairs ∧
    Denotes given body (.obj claims) ∧ GoodClaims claims now controller

/-- The bytes of the parts of a token, whether or not they are encoded as they should be. -/
def decodedParts (token : String) : List (Option (List UInt8)) :=
  (token.toList.splitOn '.').map fun part =>
    Base64.b64decode (part ++ List.replicate (Base64.padding part.length) '=')

/-- The bytes are a text that is nested too deep for the reader, and no object before that
has a name twice. -/
def Deep (given : Given) (raw : List UInt8) : Prop :=
  ∃ text completed, Utf8.decode raw = some text ∧ given.scan text = .tooDeep completed ∧
    ∀ pairs ∈ completed, (pairs.map Prod.fst).Nodup

/-- The token is signed, and its header is nested too deep, or else its body is. -/
def DeepToken (given : Given) (token secret : String) : Prop :=
  ∃ header second signature, header ≠ [] ∧ isTokenPart second = true ∧ signature ≠ [] ∧
    token.toList = Base64.encode header ++ '.' :: (second ++ '.' :: Base64.encode signature) ∧
    signature = given.hmacSha256 (Utf8.encode secret)
      (encodeAscii (Base64.encode header ++ '.' :: second)) ∧
    (Deep given header ∨ (∃ d, Denotes given header d) ∧
      ∃ body, body ≠ [] ∧ second = Base64.encode body ∧ Deep given body)

/-- No part of the token is a text that is nested too deep for the reader. -/
def WithinLimit (given : Given) (token : String) : Prop :=
  ∀ part ∈ token.toList.splitOn '.', ∀ raw text completed, part = Base64.encode raw →
    Utf8.decode raw = some text → given.scan text ≠ .tooDeep completed

/-! ## Checks in a row -/

theorem require_bind_eq_ok_iff {α : Type} {condition : Bool} {f : Unit → Except MediaError α}
    {a : α} : (require condition >>= f) = .ok a ↔ condition = true ∧ f () = .ok a := by
  cases condition with
  | false => simp [require, bind, Except.bind]
  | true => simp [require, bind, Except.bind]

theorem require_eq_ok_iff {condition : Bool} : require condition = .ok () ↔ condition = true := by
  cases condition with
  | false => simp [require]
  | true => simp [require]

theorem except_bind_eq_ok_iff {α β : Type} {r : Except MediaError α}
    {f : α → Except MediaError β} {b : β} : (r >>= f) = .ok b ↔ ∃ a, r = .ok a ∧ f a = .ok b := by
  cases r with
  | error x => simp [bind, Except.bind]
  | ok a => simp [bind, Except.bind]

/-- Any error is that of an invalid token, or a `RecursionError` in this case. -/
def InvalidOr {α : Type} (deep : Prop) (r : Except MediaError α) : Prop :=
  ∀ x, r = .error x → x = .tokenValidation ∨ x = .recursion ∧ deep

variable {deep : Prop}

theorem InvalidOr.ok {α : Type} (a : α) : InvalidOr deep (.ok a) := by
  intro x h
  cases h

theorem InvalidOr.throw {α : Type} :
    InvalidOr deep (throw .tokenValidation : Except MediaError α) := by
  intro x h
  cases h
  exact .inl rfl

theorem InvalidOr.require (condition : Bool) : InvalidOr deep (require condition) := by
  cases condition with
  | false => exact .throw
  | true => exact .ok ()

theorem InvalidOr.bind {α β : Type} {r : Except MediaError α} {f : α → Except MediaError β}
    (hr : InvalidOr deep r) (hf : ∀ a, r = .ok a → InvalidOr deep (f a)) :
    InvalidOr deep (r >>= f) := by
  cases r with
  | error x =>
      intro y h
      cases h
      exact hr x rfl
  | ok a => exact hf a rfl

theorem InvalidOr.mono {α : Type} {deep' : Prop} {r : Except MediaError α}
    (hr : InvalidOr deep r) (hdeep : deep → deep') : InvalidOr deep' r := by
  intro x h
  exact (hr x h).imp_right fun ⟨hx, hd⟩ => ⟨hx, hdeep hd⟩

/-! ## Decoding -/

/-- The loop lets the pairs through when no name comes again. -/
theorem uniqueObject_go_eq_some_iff (pairs result out : Document.Pairs) :
    (result.map Prod.fst).Nodup →
      (uniqueObject.go result pairs = some out ↔
        result ++ pairs = out ∧ ((result ++ pairs).map Prod.fst).Nodup) := by
  induction pairs generalizing result with
  | nil =>
      intro h
      simp [uniqueObject.go, h]
  | cons pair rest ih =>
      intro h
      rw [uniqueObject.go]
      split
      next hmem =>
        constructor
        · intro hnone
          cases hnone
        · rintro ⟨-, hnodup⟩
          rw [List.map_append, List.map_cons, List.nodup_append] at hnodup
          exact absurd rfl (hnodup.2.2 _ hmem _ List.mem_cons_self)
      next hmem =>
        have hnext : ((result ++ [pair]).map Prod.fst).Nodup := by
          rw [List.map_append, List.nodup_append]
          refine ⟨h, by simp, ?_⟩
          intro name hname other hother heq
          rw [List.map_singleton, List.mem_singleton] at hother
          exact hmem (hother ▸ heq ▸ hname)
        rw [ih (result ++ [pair]) hnext, List.append_assoc, List.singleton_append]

theorem uniqueObject_eq_some_iff (pairs out : Document.Pairs) :
    uniqueObject pairs = some out ↔ pairs = out ∧ (pairs.map Prod.fst).Nodup := by
  rw [uniqueObject, uniqueObject_go_eq_some_iff pairs [] out List.nodup_nil, List.nil_append]

theorem loadBytes_eq_ok_iff {raw : List UInt8} {d : Document} :
    loadBytes given raw = .ok d ↔ Denotes given raw d := by
  constructor
  · intro h
    unfold loadBytes at h
    split at h
    next => cases h
    next text htext =>
      unfold loads at h
      split at h
      next written hscan =>
        split at h
        next out hread =>
          cases h
          obtain ⟨rfl, hunique⟩ :=
            (Document.readWith_eq_some_iff uniqueObject_eq_some_iff written d).1 hread
          exact ⟨text, htext, hscan, hunique⟩
        next => cases h
      next => cases h
      next =>
        split at h
        next => cases h
        next => cases h
  · rintro ⟨text, htext, hscan, hunique⟩
    have hread := (Document.readWith_eq_some_iff uniqueObject_eq_some_iff d d).2 ⟨rfl, hunique⟩
    simp only [loadBytes, htext, loads, hscan, hread]

/-- Reading ends in a `RecursionError` when the text is too deep. -/
theorem loadBytes_recursion_iff {raw : List UInt8} :
    loadBytes given raw = .error .recursion ↔ Deep given raw := by
  constructor
  · intro h
    unfold loadBytes at h
    split at h
    next => cases h
    next text htext =>
      unfold loads at h
      split at h
      next => split at h <;> cases h
      next => cases h
      next completed hscan =>
        split at h
        next => cases h
        next hnone =>
          refine ⟨text, completed, htext, hscan, ?_⟩
          intro pairs hmem
          have hsome : uniqueObject pairs ≠ none := by
            intro hrefused
            exact hnone (List.any_eq_true.2 ⟨pairs, hmem, by rw [hrefused]; rfl⟩)
          obtain ⟨out, hout⟩ := Option.ne_none_iff_exists'.1 hsome
          exact ((uniqueObject_eq_some_iff pairs out).1 hout).2
  · rintro ⟨text, completed, htext, hscan, hnames⟩
    have hnone : ¬ (completed.any fun pairs => (uniqueObject pairs).isNone) = true := by
      intro hany
      obtain ⟨pairs, hmem, hrefused⟩ := List.any_eq_true.1 hany
      rw [(uniqueObject_eq_some_iff pairs pairs).2 ⟨rfl, hnames pairs hmem⟩] at hrefused
      cases hrefused
    simp only [loadBytes, htext, loads, hscan]
    rw [if_neg hnone]

theorem isTokenChar_of_mem_alphabet {c : Char} (h : c ∈ Base64.alphabet) :
    isTokenChar c = true :=
  List.all_eq_true.1 (by decide : Base64.alphabet.all isTokenChar = true) c h

theorem isTokenPart_encode {raw : List UInt8} (h : raw ≠ []) :
    isTokenPart (Base64.encode raw) = true := by
  rw [isTokenPart, Bool.and_eq_true, Bool.not_eq_true', List.isEmpty_eq_false_iff]
  refine ⟨fun hnil => h (Base64.encode_eq_nil_iff.1 hnil), List.all_eq_true.2 ?_⟩
  intro c hc
  exact isTokenChar_of_mem_alphabet (Base64.encode_subset raw hc)

/-- Only the encoding of bytes is decoded to them. -/
theorem decodeBase64url_eq_ok_iff {value : List Char} {raw : List UInt8} :
    decodeBase64url value = .ok raw ↔ raw ≠ [] ∧ value = Base64.encode raw := by
  rw [decodeBase64url, require_bind_eq_ok_iff, Bool.and_eq_true]
  constructor
  · rintro ⟨⟨hpart, -⟩, h⟩
    split at h
    next => cases h
    next decoded hdecoded =>
      obtain ⟨hcanonical, heq⟩ := require_bind_eq_ok_iff.1 h
      cases heq
      rw [beq_iff_eq, Base64.unpadded_urlsafeB64encode] at hcanonical
      refine ⟨?_, hcanonical⟩
      rintro rfl
      rw [hcanonical] at hpart
      cases hpart
  · rintro ⟨hne, rfl⟩
    refine ⟨⟨isTokenPart_encode hne, ?_⟩, ?_⟩
    · exact bne_iff_ne.2 (Base64.length_encode_mod raw)
    · rw [Base64.b64decode_padded (Base64.pad_not_mem_encode raw), Base64.decode_encode]
      simp only [Base64.unpadded_urlsafeB64encode, require_bind_eq_ok_iff, beq_self_eq_true,
        true_and]
      rfl

theorem decodeBase64url_invalid (value : List Char) :
    InvalidOr deep (decodeBase64url value) := by
  refine .bind (.require _) fun _ _ => ?_
  split
  next => exact .throw
  next => exact .bind (.require _) fun _ _ => .ok _

theorem decodeJsonPart_eq_ok_iff {value : List Char} {d : Document} :
    decodeJsonPart given value = .ok d ↔
      ∃ raw, raw ≠ [] ∧ value = Base64.encode raw ∧ Denotes given raw d := by
  have hbind : (decodeBase64url value >>= loadBytes given) = .ok d ↔
      ∃ raw, raw ≠ [] ∧ value = Base64.encode raw ∧ Denotes given raw d := by
    rw [except_bind_eq_ok_iff]
    constructor
    · rintro ⟨raw, hraw, hload⟩
      obtain ⟨hne, hvalue⟩ := decodeBase64url_eq_ok_iff.1 hraw
      exact ⟨raw, hne, hvalue, loadBytes_eq_ok_iff.1 hload⟩
    · rintro ⟨raw, hne, hvalue, hdenotes⟩
      exact ⟨raw, decodeBase64url_eq_ok_iff.2 ⟨hne, hvalue⟩, loadBytes_eq_ok_iff.2 hdenotes⟩
  rw [← hbind, decodeJsonPart]
  split
  next out h => rw [h]
  next h => rw [h]
  next x _ h => rw [h]; simp

/-- A part is decoded, or refused, or it is the encoding of a text that is too deep. -/
theorem decodeJsonPart_invalid (value : List Char) :
    InvalidOr (∃ raw, raw ≠ [] ∧ value = Base64.encode raw ∧ Deep given raw)
      (decodeJsonPart given value) := by
  rw [decodeJsonPart]
  split
  next out _ => exact .ok out
  next h =>
    intro x hx
    cases hx
    cases hraw : decodeBase64url value with
    | error x =>
        rw [hraw] at h
        cases h
        obtain hx | ⟨-, hf⟩ := @decodeBase64url_invalid False value _ hraw
        · cases hx
        · exact hf.elim
    | ok raw =>
        rw [hraw] at h
        obtain ⟨hne, hvalue⟩ := decodeBase64url_eq_ok_iff.1 hraw
        exact .inr ⟨rfl, raw, hne, hvalue, loadBytes_recursion_iff.1 h⟩
  next => exact .throw

theorem decodeJsonPart_deep {raw : List UInt8} (hne : raw ≠ []) (h : Deep given raw) :
    decodeJsonPart given (Base64.encode raw) = .error .recursion := by
  have hbind : (decodeBase64url (Base64.encode raw) >>= loadBytes given) = .error .recursion := by
    rw [decodeBase64url_eq_ok_iff.2 ⟨hne, rfl⟩]
    exact loadBytes_recursion_iff.2 h
  rw [decodeJsonPart, hbind]

/-! ## Checking -/

theorem hasKeys_iff {pairs : Document.Pairs} {keys : List String} :
    hasKeys pairs keys = true ↔ ∀ name, name ∈ pairs.map Prod.fst ↔ name ∈ keys := by
  rw [hasKeys, decide_eq_true_iff]
  exact ⟨fun h name => ⟨fun hn => h.1 hn, fun hn => h.2 hn⟩,
    fun h => ⟨fun name hn => (h name).1 hn, fun name hn => (h name).2 hn⟩⟩

theorem isText_iff {value : Option Document} {text : String} :
    isText value text = true ↔ value = some (.str text) := by
  unfold isText
  split
  next s => simp
  next h => simpa using fun heq => h text heq

theorem isOne_iff {value : Option Document} :
    (isOne value = true ∧ (!isBool value) = true) ↔
      value = some (.int 1) ∨ value = some (.float (some 1)) := by
  match value with
  | none | some .null | some (.str _) | some (.arr _) | some (.obj _) | some (.float none) =>
      simp [isOne]
  | some (.bool b) => simp [isBool]
  | some (.int n) => simp [isOne, isBool]
  | some (.float (some q)) => simp [isOne, isBool]

theorem isReadOnly_iff {value : Option Document} :
    isReadOnly value = true ↔ value = some (.arr [.str "read"]) := by
  unfold isReadOnly
  split
  next s => simp
  next h => simpa using fun heq => h "read" heq

theorem isBoundedId_iff {value : Option Document} :
    isBoundedId value = true ↔ ∃ id, value = some (.str id) ∧ BoundedId id := by
  unfold isBoundedId
  split
  next s =>
    simp only [BoundedId, Option.some.injEq, Document.str.injEq, exists_eq_left']
    cases s.toList with
    | nil => simp [matchesBoundedId]
    | cons first rest => simp [matchesBoundedId, and_assoc]
  next h =>
    constructor
    · intro hf
      cases hf
    · rintro ⟨id, heq, -⟩
      exact absurd heq (h id)

theorem validateClaims_eq_ok_iff {claims : Document.Pairs} :
    (hasKeys claims claimKeys = true ∧ validateClaims claims now controller = .ok ()) ↔
      GoodClaims claims now controller := by
  simp only [validateClaims, require_bind_eq_ok_iff, hasKeys_iff, isOne_iff, Bool.and_eq_true,
    isBoundedId_iff, isText_iff, isReadOnly_iff]
  constructor
  · rintro ⟨hnames, hversion, ⟨hsub, hnonce⟩, ⟨hcontroller, hpath⟩, hactions, h⟩
    refine ⟨hnames, hversion, hsub, hnonce, hcontroller, hpath, hactions, ?_⟩
    split at h
    next issuedAt expiresAt hiat hexp =>
      rw [require_bind_eq_ok_iff, require_eq_ok_iff] at h
      obtain ⟨horder, hlength⟩ := h
      simp [maxSessionSeconds] at horder hlength
      exact ⟨issuedAt, expiresAt, hiat, hexp, by omega, by omega, by omega, by omega⟩
    next => cases h
  · intro h
    obtain ⟨issuedAt, expiresAt, hiat, hexp, h1, h2, h3, h4⟩ := h.window
    refine ⟨h.names, h.version, ⟨h.sub, h.nonce⟩, ⟨h.controller, h.path⟩, h.actions, ?_⟩
    simp only [hiat, hexp, require_bind_eq_ok_iff, require_eq_ok_iff]
    simp [maxSessionSeconds]
    omega

theorem validateClaims_invalid (claims : Document.Pairs) :
    InvalidOr deep (validateClaims claims now controller) := by
  refine .bind (.require _) fun _ _ => .bind (.require _) fun _ _ => .bind (.require _) fun _ _ =>
    .bind (.require _) fun _ _ => ?_
  split
  next => exact .bind (.require _) fun _ _ => .require _
  next => exact .throw

theorem validateParts_eq_ok_iff {header claims : Document} {out : Document.Pairs} :
    validateParts header claims now controller = .ok out ↔
      ∃ pairs, header = .obj pairs ∧ GoodHeader pairs ∧ claims = .obj out ∧
        GoodClaims out now controller := by
  constructor
  · intro h
    unfold validateParts at h
    split at h
    next pairs =>
      simp only [require_bind_eq_ok_iff, hasKeys_iff, Bool.and_eq_true, isText_iff] at h
      obtain ⟨hnames, ⟨halg, htyp⟩, h⟩ := h
      split at h
      next body =>
        obtain ⟨hkeys, h⟩ := require_bind_eq_ok_iff.1 h
        obtain ⟨u, hclaims, hout⟩ := except_bind_eq_ok_iff.1 h
        cases hout
        exact ⟨pairs, rfl, ⟨hnames, halg, htyp⟩, rfl, validateClaims_eq_ok_iff.1 ⟨hkeys, hclaims⟩⟩
      next => cases h
    next => cases h
  · rintro ⟨pairs, rfl, hheader, rfl, hclaims⟩
    obtain ⟨hkeys, hvalid⟩ := validateClaims_eq_ok_iff.2 hclaims
    simp only [validateParts, require_bind_eq_ok_iff, hasKeys_iff.2 hheader.names, Bool.and_eq_true,
      isText_iff.2 hheader.alg, isText_iff.2 hheader.typ, hkeys, hvalid, true_and]
    rfl

theorem validateParts_invalid (header claims : Document) :
    InvalidOr deep (validateParts header claims now controller) := by
  unfold validateParts
  split
  next =>
    refine .bind (.require _) fun _ _ => .bind (.require _) fun _ _ => ?_
    split
    next =>
      exact .bind (.require _) fun _ _ => .bind (validateClaims_invalid _) fun _ _ => .ok _
    next => exact .throw
  next => exact .throw

/-! ## The whole token -/

theorem dot_not_mem_part {part : List Char} (h : isTokenPart part = true) : '.' ∉ part := by
  intro hmem
  rw [isTokenPart, Bool.and_eq_true] at h
  exact absurd (List.all_eq_true.1 h.2 _ hmem) (by decide)

/-- A text splits into three parts where two dots stand between parts. -/
theorem splitOn_of_text {first second third : List Char} (hfirst : isTokenPart first = true)
    (hsecond : isTokenPart second = true) (hthird : isTokenPart third = true)
    (h : token.toList = first ++ '.' :: (second ++ '.' :: third)) :
    token.toList.splitOn '.' = [first, second, third] := by
  rw [h, List.splitOn_append_cons_self_of_not_mem (dot_not_mem_part hfirst),
    List.splitOn_append_cons_self_of_not_mem (dot_not_mem_part hsecond),
    List.splitOn_eq_singleton (dot_not_mem_part hthird)]

theorem Carries.splitOn {header body signature : List UInt8}
    (h : Carries token header body signature) :
    token.toList.splitOn '.' =
      [Base64.encode header, Base64.encode body, Base64.encode signature] :=
  splitOn_of_text (isTokenPart_encode h.header_ne) (isTokenPart_encode h.body_ne)
    (isTokenPart_encode h.signature_ne) h.text

/-- The parts of a token make up its text. -/
theorem text_of_splitOn {first second third : List Char}
    (h : token.toList.splitOn '.' = [first, second, third]) :
    token.toList = first ++ '.' :: (second ++ '.' :: third) := by
  have hjoin := @List.intercalate_splitOn _ token.toList _ _ '.'
  rw [h] at hjoin
  rw [← hjoin]
  simp [List.intercalate]

/-- The bytes that an accepted token carries are those its parts decode to. -/
theorem Carries.decodedParts {header body signature : List UInt8}
    (h : Carries token header body signature) :
    decodedParts token = [some header, some body, some signature] := by
  rw [MediaAuth.decodedParts, h.splitOn]
  simp [Base64.b64decode_padded (Base64.pad_not_mem_encode _), Base64.decode_encode]

theorem validateMediaToken_eq_ok_iff {claims : Document.Pairs} (hsecret : secret ≠ "") :
    validateMediaToken given token secret now controller = .ok claims ↔
      Accepted given token secret now controller claims := by
  rw [validateMediaToken, require_bind_eq_ok_iff, bne_iff_ne, and_iff_right hsecret]
  constructor
  · intro h
    split at h
    next first second third hsplit =>
      obtain ⟨-, h⟩ := require_bind_eq_ok_iff.1 h
      obtain ⟨signature, hsignature, h⟩ := except_bind_eq_ok_iff.1 h
      obtain ⟨hexpected, h⟩ := require_bind_eq_ok_iff.1 h
      obtain ⟨header, hheader, h⟩ := except_bind_eq_ok_iff.1 h
      obtain ⟨body, hbody, h⟩ := except_bind_eq_ok_iff.1 h
      obtain ⟨pairs, rfl, hgood, rfl, hclaims⟩ := validateParts_eq_ok_iff.1 h
      obtain ⟨hsignature_ne, rfl⟩ := decodeBase64url_eq_ok_iff.1 hsignature
      obtain ⟨rawHeader, hheader_ne, rfl, hfirst⟩ := decodeJsonPart_eq_ok_iff.1 hheader
      obtain ⟨rawBody, hbody_ne, rfl, hsecond⟩ := decodeJsonPart_eq_ok_iff.1 hbody
      exact ⟨rawHeader, rawBody, signature, pairs,
        ⟨hheader_ne, hbody_ne, hsignature_ne, text_of_splitOn hsplit⟩, beq_iff_eq.1 hexpected,
        hfirst, hgood, hsecond, hclaims⟩
    next => cases h
  · rintro ⟨header, body, signature, pairs, hcarries, hsigned, hheader, hgood, hbody, hclaims⟩
    rw [hcarries.splitOn]
    simp only [isTokenPart_encode hcarries.header_ne, isTokenPart_encode hcarries.body_ne,
      isTokenPart_encode hcarries.signature_ne, Bool.and_self, require_bind_eq_ok_iff, true_and]
    refine except_bind_eq_ok_iff.2 ⟨signature,
      decodeBase64url_eq_ok_iff.2 ⟨hcarries.signature_ne, rfl⟩, ?_⟩
    refine require_bind_eq_ok_iff.2 ⟨beq_iff_eq.2 hsigned, ?_⟩
    refine except_bind_eq_ok_iff.2 ⟨.obj pairs,
      decodeJsonPart_eq_ok_iff.2 ⟨header, hcarries.header_ne, rfl, hheader⟩, ?_⟩
    refine except_bind_eq_ok_iff.2 ⟨.obj claims,
      decodeJsonPart_eq_ok_iff.2 ⟨body, hcarries.body_ne, rfl, hbody⟩, ?_⟩
    exact validateParts_eq_ok_iff.2 ⟨pairs, rfl, hgood, rfl, hclaims⟩

/-- A token is accepted, or refused, or it is signed and too deep. -/
theorem validateMediaToken_invalid :
    InvalidOr (DeepToken given token secret)
      (validateMediaToken given token secret now controller) := by
  refine .bind (.require _) fun _ _ => ?_
  split
  next first second third hsplit =>
    refine .bind (.require _) fun _ hparts => ?_
    refine .bind (decodeBase64url_invalid _) fun signature h => ?_
    rw [require_eq_ok_iff, Bool.and_eq_true, Bool.and_eq_true] at hparts
    obtain ⟨hsignature_ne, rfl⟩ := decodeBase64url_eq_ok_iff.1 h
    refine .bind (.require _) fun _ hexpected => ?_
    have hsigned := beq_iff_eq.1 (require_eq_ok_iff.1 hexpected)
    have htext := text_of_splitOn hsplit
    refine .bind ((decodeJsonPart_invalid first).mono ?_) fun d hheader => ?_
    · rintro ⟨header, hne, rfl, hdeep⟩
      exact ⟨header, second, signature, hne, hparts.1.2, hsignature_ne, htext, hsigned, .inl hdeep⟩
    · obtain ⟨header, hne, rfl, hdenotes⟩ := decodeJsonPart_eq_ok_iff.1 hheader
      refine .bind ((decodeJsonPart_invalid second).mono ?_) fun _ _ => validateParts_invalid _ _
      intro hbody
      exact ⟨header, second, signature, hne, hparts.1.2, hsignature_ne, htext, hsigned,
        .inr ⟨⟨d, hdenotes⟩, hbody⟩⟩
  next => exact .throw

/-- A signed token that is too deep ends in a `RecursionError`. -/
theorem validateMediaToken_deep (hsecret : secret ≠ "") (h : DeepToken given token secret) :
    validateMediaToken given token secret now controller = .error .recursion := by
  obtain ⟨header, second, signature, hne, hsecond, hsignature_ne, htext, hsigned, hdeep⟩ := h
  have hsplit := splitOn_of_text (isTokenPart_encode hne) hsecond
    (isTokenPart_encode hsignature_ne) htext
  have hthird := decodeBase64url_eq_ok_iff.2 ⟨hsignature_ne, rfl⟩
  simp only [validateMediaToken, hsplit, isTokenPart_encode hne, hsecond,
    isTokenPart_encode hsignature_ne, hthird, bne_iff_ne.2 hsecret, Bool.and_self, require,
    beq_iff_eq.2 hsigned, bind, Except.bind, if_true]
  obtain hdeep | ⟨⟨d, hdenotes⟩, body, hbody_ne, rfl, hdeep⟩ := hdeep
  · rw [decodeJsonPart_deep hne hdeep]
  · rw [decodeJsonPart_eq_ok_iff.2 ⟨header, hne, rfl, hdenotes⟩, decodeJsonPart_deep hbody_ne hdeep]

/-- Within the limit of the reader, no token is too deep. -/
theorem WithinLimit.not_deep (h : WithinLimit given token) : ¬ DeepToken given token secret := by
  rintro ⟨header, second, signature, hne, hsecond, hsignature_ne, htext, -, hdeep⟩
  have hsplit := splitOn_of_text (isTokenPart_encode hne) hsecond
    (isTokenPart_encode hsignature_ne) htext
  obtain ⟨text, completed, hdecode, hscan, -⟩ | ⟨-, body, -, rfl, text, completed, hdecode,
    hscan, -⟩ := hdeep
  · exact h _ (by rw [hsplit]; simp) header text completed rfl hdecode hscan
  · exact h _ (by rw [hsplit]; simp) body text completed rfl hdecode hscan

/-- A token is accepted, with its claims, exactly if it is as it should be, and otherwise
refused with the one error.  No two accepted tokens decode to the same bytes. -/
theorem token_accepted_iff (given : Given) (token secret : String) (now : Int)
    (controller : String) (hsecret : secret ≠ "") (hlimit : WithinLimit given token) :
    (∀ claims, validateMediaToken given token secret now controller = .ok claims ↔
      Accepted given token secret now controller claims) ∧
    ((¬ ∃ claims, Accepted given token secret now controller claims) →
      validateMediaToken given token secret now controller = .error .tokenValidation) ∧
    (∀ other claims claims', Accepted given token secret now controller claims →
      Accepted given other secret now controller claims' →
      decodedParts token = decodedParts other → token = other) := by
  refine ⟨fun claims => validateMediaToken_eq_ok_iff hsecret, ?_, ?_⟩
  · intro hnone
    cases h : validateMediaToken given token secret now controller with
    | ok claims => exact absurd ⟨claims, (validateMediaToken_eq_ok_iff hsecret).1 h⟩ hnone
    | error x =>
        obtain rfl | ⟨-, hdeep⟩ := validateMediaToken_invalid x h
        · rfl
        · exact absurd hdeep hlimit.not_deep
  · rintro other claims claims' ⟨header, body, signature, -, hcarries, -⟩
      ⟨header', body', signature', -, hcarries', -⟩ hparts
    rw [hcarries.decodedParts, hcarries'.decodedParts] at hparts
    cases hparts
    exact String.toList_inj.1 (hcarries.text.trans hcarries'.text.symm)

namespace Issued

/-- The header of a token as the service issues it. -/
def header : Document.Pairs := [("alg", .str "HS256"), ("typ", .str "JWT")]

/-- The claims of the token. -/
def claims : Document.Pairs :=
  [("v", .int 1), ("sub", .str "u1"), ("controller", .str "primary"), ("path", .str "gate"),
    ("actions", .arr [.str "read"]), ("iat", .int 100), ("exp", .int 160), ("nonce", .str "n1")]

/-- The signature of the token and the two documents in it. -/
def library : Given where
  hmacSha256 := fun _ _ =>
    [128, 100, 36, 131, 24, 51, 23, 188, 207, 42, 1, 46, 109, 226, 101, 77, 80, 194, 73, 107,
      252, 115, 44, 174, 238, 185, 137, 92, 227, 10, 163, 198]
  scan := fun text =>
    if text = "\x7b\"alg\":\"HS256\",\"typ\":\"JWT\"\x7d" then .document (.obj header)
    else if text = "\x7b\"v\":1,\"sub\":\"u1\",\"controller\":\"primary\",\"path\":\"gate\"," ++
        "\"actions\":[\"read\"],\"iat\":100,\"exp\":160,\"nonce\":\"n1\"\x7d" then
      .document (.obj claims)
    else .malformed

/-- The token. -/
def issued : String :=
  "eyJhbGciOiJIUzI1NiIsInR5cCI6IkpXVCJ9." ++
    "eyJ2IjoxLCJzdWIiOiJ1MSIsImNvbnRyb2xsZXIiOiJwcmltYXJ5IiwicGF0aCI6ImdhdGUiLCJhY3Rpb25zIjpb" ++
    "InJlYWQiXSwiaWF0IjoxMDAsImV4cCI6MTYwLCJub25jZSI6Im4xIn0." ++
    "gGQkgxgzF7zPKgEubeJlTVDCSWv8cyyu7rmJXOMKo8Y"

/-- The text of the header. -/
def headerText : String := "\x7b\"alg\":\"HS256\",\"typ\":\"JWT\"\x7d"

/-- The text of the claims. -/
def claimsText : String :=
  "\x7b\"v\":1,\"sub\":\"u1\",\"controller\":\"primary\",\"path\":\"gate\"," ++
    "\"actions\":[\"read\"],\"iat\":100,\"exp\":160,\"nonce\":\"n1\"\x7d"

theorem loads_header : loadBytes library (Utf8.encode headerText) = .ok (.obj header) := by
  have hscan : library.scan headerText = .document (.obj header) := by
    dsimp only [library]
    exact if_pos rfl
  rw [loadBytes, Utf8.decode_encode]
  dsimp only
  rw [loads, hscan]
  rfl

theorem loads_claims : loadBytes library (Utf8.encode claimsText) = .ok (.obj claims) := by
  have hother : claimsText ≠ headerText := by decide +kernel
  have hscan : library.scan claimsText = .document (.obj claims) := by
    dsimp only [library]
    exact (if_neg hother).trans (if_pos rfl)
  rw [loadBytes, Utf8.decode_encode]
  dsimp only
  rw [loads, hscan]
  rfl

/-- The token is the text of the header, the claims and the signature. -/
theorem issued_carries :
    Carries issued (Utf8.encode headerText) (Utf8.encode claimsText) (library.hmacSha256 [] []) where
  header_ne := by
    rw [headerText, Utf8.encode_ofList]
    decide +kernel
  body_ne := by
    delta claimsText
    rw [Utf8.encode_append, Utf8.encode_ofList]
    decide +kernel
  signature_ne := by decide
  text := by
    delta issued headerText claimsText
    rw [Utf8.encode_append, Utf8.encode_ofList, Utf8.encode_ofList, Utf8.encode_ofList, String.toList_append, String.toList_append, String.toList_append,
      String.toList_ofList, String.toList_ofList, String.toList_ofList, String.toList_ofList]
    decide +kernel

theorem issued_claims : GoodHeader header ∧ GoodClaims claims 120 "primary" := by
  have hok : (validateParts (.obj header) (.obj claims) 120 "primary").isOk = true := by
    decide +kernel
  cases h : validateParts (.obj header) (.obj claims) 120 "primary" with
  | error x =>
      rw [h] at hok
      cases hok
  | ok found =>
      obtain ⟨pairs, hheader, hgood, hfound, hclaims⟩ := validateParts_eq_ok_iff.1 h
      cases hheader
      cases hfound
      exact ⟨hgood, hclaims⟩

/-- Half-way through its session, the token is accepted. -/
theorem token_accepted_issued :
    ∃ claims, Accepted library issued "0123456789abcdef0123456789abcdef" 120 "primary" claims := by
  have hlimit : WithinLimit library issued := by
    intro part _ raw text completed _ _ hscan
    simp only [library] at hscan
    split at hscan
    next => cases hscan
    next => split at hscan <;> cases hscan
  have haccepted : Accepted library issued "0123456789abcdef0123456789abcdef" 120 "primary"
      claims :=
    ⟨_, _, _, header, issued_carries, rfl, loadBytes_eq_ok_iff.1 loads_header, issued_claims.1,
      loadBytes_eq_ok_iff.1 loads_claims, issued_claims.2⟩
  have h := (validateMediaToken_eq_ok_iff (by decide)).2 haccepted
  exact ⟨claims, ((token_accepted_iff library issued "0123456789abcdef0123456789abcdef" 120
    "primary" (by decide) hlimit).1 claims).1 h⟩

end Issued

end MediaAuth

end GateController
