import GateController.Media.Prepared
import GateController.Media.RoundTrip

/-!
# What a migration comes to

Older installations keep the settings of the gateway and the values of its relay in one file,
under an older key for the camera and without a clear source.  `migrate_gateway_environments`
renames the key, derives the clear source, and moves the values of the relay to a file of their
own, unless that file has values already.

`plan` says what a run without failures comes to, from the two files.  What it writes is read
back, passes the checks, and gives no reason to write anything again (`Plan.settled`).
-/

namespace GateController

open Data

namespace MediaConfig

open TurnRefresh (ok_of_bind require_ok keys_of_hasKeys)

/-! ## The values of the gateway -/

/-- What a migration may raise. -/
inductive MigrateError where
  | config (message : String)
  | value
  | key
  | os
deriving DecidableEq

/-- What is given: the checks, another path in a URL
(`urlsplit(url)._replace(path=path).geturl()`), and whether the directory of the relay's file is
owner-controlled. -/
structure Splitter where
  lib : Library
  replacePath : String → String → String
  ownerControlled : Bool

/-- A `MediaConfigError`. -/
def checked {α : Type} (r : Except String α) : Except MigrateError α := r.mapError .config

theorem of_checked {α : Type} {r : Except String α} {a : α} (h : checked r = .ok a) :
    r = .ok a := by
  cases r with
  | error message => cases h
  | ok b => exact congrArg Except.ok (Except.ok.inj h)

/-- `_LEGACY_GATEWAY_SOURCE_KEY`. -/
def legacyGatewaySourceKey : String := "MTX_PATHS_GATE_SOURCE"

/-- `_migrate_legacy_source_key`. -/
def migrateLegacySourceKey (values : Values) : Except MigrateError (Values × Bool) :=
  match values.lookup legacyGatewaySourceKey with
  | none => .ok (values, false)
  | some source =>
      if (values.lookup "MTX_PATHS_CAMERA_SOURCE").isSome then
        .error (.config "gateway environment has conflicting source keys")
      else
        .ok (values.filter (·.1 != legacyGatewaySourceKey) ++
          [("MTX_PATHS_CAMERA_SOURCE", source)], true)

/-- The path of the clear source, of one that ends in `_sub`. -/
def clearPath (path : String) : String :=
  String.ofList (path.toList.take (path.length - 4) ++ "_main".toList)

/-- `_migrate_clear_source_key`. -/
def migrateClearSourceKey (p : Splitter) (values : Values) :
    Except MigrateError (Values × Bool) :=
  if (values.lookup "MTX_PATHS_CLEAR_SOURCE").isSome then .ok (values, false)
  else
    match values.lookup "MTX_PATHS_CAMERA_SOURCE" with
    | none => .ok (values, false)
    | some fluent =>
        match p.lib.urlsplit fluent with
        | none => .error .value
        | some parsed =>
            if "_sub".toList <:+ parsed.path.toList then
              .ok (values ++ [("MTX_PATHS_CLEAR_SOURCE",
                p.replacePath fluent (clearPath parsed.path))], true)
            else .error (.config "clear camera source cannot be derived safely")

/-- The values of the gateway's file under the keys of today, and whether a key has changed. -/
def migratedValues (p : Splitter) (gateway : Option File) :
    Except MigrateError (Values × Bool) := do
  let values ← checked (parseTrustedEnvironment gateway)
  let (values, sourceKeyMigrated) ← migrateLegacySourceKey values
  let (values, clearSourceMigrated) ← migrateClearSourceKey p values
  return (values, sourceKeyMigrated || clearSourceMigrated)

/-- `_trusted_file_has_content`. -/
def trustedFileHasContent : Option File → Except String Bool
  | none => .ok false
  | some file => do
      require (!(!file.regular || !file.trusted || decide (maxConfigBytes < file.body.length)))
        "trusted file must be owner-only and bounded"
      return !file.body.isEmpty

/-- The file of the relay as `parse_trusted_environment` finds it.  The directory of the
gateway's file is looked at together with the file. -/
def Splitter.seen (p : Splitter) (runtime : Option File) : Option File :=
  runtime.map fun file => { file with trusted := file.trusted && p.ownerControlled }

/-- The check of the directory before the file of the relay is written. -/
def Splitter.requireOwner (p : Splitter) : Except String Unit :=
  require p.ownerControlled "trusted file directory is not owner-controlled"

/-- `_serialize_environment`, or `KeyError`. -/
def serialized (values : Values) (order : List String) : Except MigrateError (List UInt8) :=
  match serializeEnvironment values order with
  | none => .error .key
  | some body => .ok body

/-! ## Plans -/

/-- What a run writes, if it writes. -/
structure Plan where
  gateway : Option (List UInt8)
  runtime : Option (List UInt8)

/-- What a run writes that is neither cut short nor fails, from the two files. -/
def plan (p : Splitter) (gateway runtime : Option File) : Except MigrateError Plan := do
  let (values, changed) ← migratedValues p gateway
  if hasKeys values gatewayKeys then
    let _ ← checked (validateGatewayEnvironment p.lib values)
    let static := select values gatewayStaticKeyOrder
    if ← checked (trustedFileHasContent runtime) then
      let turn ← checked (parseTrustedEnvironment (p.seen runtime))
      let turn ← checked (validateRuntimeTurnEnvironment p.lib turn)
      let _ ← checked (validateSplitGatewayEnvironment p.lib static turn)
      let body ← serialized static gatewayStaticKeyOrder
      return ⟨some body, none⟩
    else
      let turn := select values runtimeTurnKeyOrder
      let turnBody ← serialized turn runtimeTurnKeyOrder
      let _ ← checked p.requireOwner
      let _ ← checked (validateSplitGatewayEnvironment p.lib static turn)
      let body ← serialized static gatewayStaticKeyOrder
      return ⟨some body, some turnBody⟩
  else
    let _ ← checked (require (hasKeys values gatewayStaticKeyOrder)
      "gateway environment has missing or forbidden keys")
    let static ← checked (validateGatewayStaticEnvironment p.lib values)
    if ← checked (trustedFileHasContent runtime) then
      let turn ← checked (parseTrustedEnvironment (p.seen runtime))
      let _ ← checked (validateSplitGatewayEnvironment p.lib static turn)
    if changed then
      let body ← serialized static gatewayStaticKeyOrder
      return ⟨some body, none⟩
    else return ⟨none, none⟩

/-- The file that a write leaves. -/
def writtenFile (body : List UInt8) : File := { body }

/-- The file in the end. -/
def afterWrite (old : Option File) : Option (List UInt8) → Option File
  | none => old
  | some body => some (writtenFile body)

/-! ## What is kept -/

section Kept

variable {p : Splitter} {gateway : Option File} {values out : Values} {changed : Bool}
  {key : String}

theorem lookup_filter_ne {other : String} (h : key ≠ other) :
    (values.filter (·.1 != other)).lookup key = values.lookup key := by
  induction values with
  | nil => rfl
  | cons pair rest ih =>
      obtain ⟨name, value⟩ := pair
      by_cases hname : name = other
      · subst hname
        rw [List.filter_cons_of_neg (by simp), ih, List.lookup_cons, beq_false_of_ne h]
      · rw [List.filter_cons_of_pos (by simpa using hname), List.lookup_cons, List.lookup_cons, ih]

/-- The older key is renamed, and every other value is kept. -/
theorem migrateLegacySourceKey_keeps (h : migrateLegacySourceKey values = .ok (out, changed)) :
    (∀ key, key ≠ "MTX_PATHS_CAMERA_SOURCE" → key ≠ legacyGatewaySourceKey →
      out.lookup key = values.lookup key) ∧
    out.lookup "MTX_PATHS_CAMERA_SOURCE" =
      (values.lookup "MTX_PATHS_CAMERA_SOURCE").or (values.lookup legacyGatewaySourceKey) := by
  unfold migrateLegacySourceKey at h
  split at h
  next hlegacy =>
    cases h
    exact ⟨fun _ _ _ => rfl, by rw [hlegacy, Option.or_none]⟩
  next source hlegacy =>
    split at h
    next => cases h
    next hcamera =>
      cases h
      have hnone : values.lookup "MTX_PATHS_CAMERA_SOURCE" = none :=
        Option.not_isSome_iff_eq_none.1 hcamera
      refine ⟨fun key hne hold => ?_, ?_⟩
      · rw [List.lookup_append, lookup_filter_ne hold, List.lookup_cons, beq_false_of_ne hne,
          List.lookup_nil, Option.or_none]
      · rw [List.lookup_append, lookup_filter_ne (by decide), hnone, hlegacy]
        rfl

/-- The clear source is kept, or derived from the other. -/
theorem migrateClearSourceKey_keeps (h : migrateClearSourceKey p values = .ok (out, changed)) :
    (∀ key, key ≠ "MTX_PATHS_CLEAR_SOURCE" → out.lookup key = values.lookup key) ∧
    (out.lookup "MTX_PATHS_CLEAR_SOURCE" = values.lookup "MTX_PATHS_CLEAR_SOURCE" ∨
      ∃ fluent parsed, values.lookup "MTX_PATHS_CAMERA_SOURCE" = some fluent ∧
        p.lib.urlsplit fluent = some parsed ∧ "_sub".toList <:+ parsed.path.toList ∧
        out.lookup "MTX_PATHS_CLEAR_SOURCE" =
          some (p.replacePath fluent (clearPath parsed.path))) := by
  unfold migrateClearSourceKey at h
  split at h
  next =>
    cases h
    exact ⟨fun _ _ => rfl, .inl rfl⟩
  next hclear =>
    have hnone : values.lookup "MTX_PATHS_CLEAR_SOURCE" = none :=
      Option.not_isSome_iff_eq_none.1 hclear
    split at h
    next =>
      cases h
      exact ⟨fun _ _ => rfl, .inl rfl⟩
    next fluent hfluent =>
      split at h
      next => cases h
      next parsed hparsed =>
        split at h
        next hsuffix =>
          cases h
          refine ⟨fun key hne => ?_, .inr ⟨fluent, parsed, hfluent, hparsed, hsuffix, ?_⟩⟩
          · rw [List.lookup_append, List.lookup_cons, beq_false_of_ne hne, List.lookup_nil,
              Option.or_none]
          · rw [List.lookup_append, hnone]
            rfl
        next => cases h

/-- The values that a migration starts from.  The camera keeps its source under the key of today,
the clear source is the one that was there or is derived, and everything else is as it was. -/
def KeepsValues (p : Splitter) (before after : Values) : Prop :=
  (∀ key, key ≠ "MTX_PATHS_CAMERA_SOURCE" → key ≠ legacyGatewaySourceKey →
    key ≠ "MTX_PATHS_CLEAR_SOURCE" → after.lookup key = before.lookup key) ∧
  after.lookup "MTX_PATHS_CAMERA_SOURCE" =
    (before.lookup "MTX_PATHS_CAMERA_SOURCE").or (before.lookup legacyGatewaySourceKey) ∧
  (after.lookup "MTX_PATHS_CLEAR_SOURCE" = before.lookup "MTX_PATHS_CLEAR_SOURCE" ∨
    ∃ fluent parsed, after.lookup "MTX_PATHS_CAMERA_SOURCE" = some fluent ∧
      p.lib.urlsplit fluent = some parsed ∧ "_sub".toList <:+ parsed.path.toList ∧
      after.lookup "MTX_PATHS_CLEAR_SOURCE" =
        some (p.replacePath fluent (clearPath parsed.path)))

theorem migratedValues_keeps (h : migratedValues p gateway = .ok (out, changed)) :
    ∃ values, parseTrustedEnvironment gateway = .ok values ∧ KeepsValues p values out := by
  obtain ⟨values, hread, h₁⟩ := ok_of_bind h
  obtain ⟨⟨legacy, sourceKeyMigrated⟩, hlegacy, h₂⟩ := ok_of_bind h₁
  obtain ⟨⟨clear, clearSourceMigrated⟩, hclear, h₃⟩ := ok_of_bind h₂
  cases h₃
  obtain ⟨hother, hcamera⟩ := migrateLegacySourceKey_keeps hlegacy
  obtain ⟨hrest, hsource⟩ := migrateClearSourceKey_keeps hclear
  have hsame := hrest "MTX_PATHS_CAMERA_SOURCE" (by decide)
  refine ⟨values, of_checked hread, fun key hne hold hclear => ?_, hsame.trans hcamera, ?_⟩
  · rw [hrest key hclear, hother key hne hold]
  · rw [hsame, ← hother "MTX_PATHS_CLEAR_SOURCE" (by decide) (by decide)]
    exact hsource

end Kept

/-! ## Checks that pass -/

section Checks

variable {lib : Library} {values values' static turn out : Values} {order : List String}
  {key : String}

theorem validateGatewayStaticEnvironment_self
    (h : validateGatewayStaticEnvironment lib values = .ok out) : out = values := by
  obtain ⟨-, -, h⟩ := ok_of_bind h
  obtain ⟨-, -, h⟩ := ok_of_bind h
  obtain ⟨-, -, h⟩ := ok_of_bind h
  obtain ⟨-, -, h⟩ := ok_of_bind h
  obtain ⟨-, -, h⟩ := ok_of_bind h
  obtain ⟨udp, -, h⟩ := ok_of_bind h
  obtain ⟨tcp, -, h⟩ := ok_of_bind h
  obtain ⟨-, -, h⟩ := ok_of_bind h
  dsimp only at h
  split at h
  next => cases h
  next =>
    obtain ⟨-, -, h⟩ := ok_of_bind h
    obtain ⟨-, -, h⟩ := ok_of_bind h
    exact (Except.ok.inj h).symm

theorem validateRuntimeTurnEnvironment_self
    (h : validateRuntimeTurnEnvironment lib values = .ok out) : out = values := by
  obtain ⟨-, -, h⟩ := ok_of_bind h
  obtain ⟨-, -, h⟩ := ok_of_bind h
  obtain ⟨-, -, h⟩ := ok_of_bind h
  obtain ⟨-, -, h⟩ := ok_of_bind h
  exact (Except.ok.inj h).symm

/-- A valid environment has valid parts. -/
theorem validateGatewayEnvironment_parts (h : validateGatewayEnvironment lib values = .ok out) :
    validateEffectiveValues values = .ok () ∧ hasKeys values gatewayKeys = true ∧
      validateGatewayStaticEnvironment lib (select values gatewayStaticKeyOrder) =
        .ok (select values gatewayStaticKeyOrder) ∧
      validateRuntimeTurnEnvironment lib (select values runtimeTurnKeyOrder) =
        .ok (select values runtimeTurnKeyOrder) := by
  obtain ⟨⟨⟩, heffective, h⟩ := ok_of_bind h
  obtain ⟨⟨⟩, hkeys, h⟩ := ok_of_bind h
  obtain ⟨static, hstatic, h⟩ := ok_of_bind h
  obtain ⟨turn, hturn, -⟩ := ok_of_bind h
  obtain rfl := validateGatewayStaticEnvironment_self hstatic
  obtain rfl := validateRuntimeTurnEnvironment_self hturn
  exact ⟨heffective, require_ok hkeys, hstatic, hturn⟩

theorem get_select (h : key ∈ order) : get (select values order) key = get values key := by
  induction order with
  | nil => cases h
  | cons first rest ih =>
      by_cases hkey : key = first
      · subst hkey
        simp [get, select]
      · have hrest := ih ((List.mem_cons.1 h).resolve_left hkey)
        rw [get, select, List.map_cons, List.lookup_cons, beq_false_of_ne hkey]
        exact hrest

theorem select_congr (h : ∀ key ∈ order, get values key = get values' key) :
    select values order = select values' order :=
  List.map_congr_left fun key hkey => by rw [h key hkey]

theorem select_select : select (select values order) order = select values order :=
  select_congr fun _ hkey => get_select hkey

theorem select_map_fst : (select values order).map Prod.fst = order := by
  rw [select, List.map_map]
  exact List.map_id order

theorem hasKeys_select : hasKeys (select values order) order = true := by
  rw [hasKeys, select_map_fst]
  exact decide_eq_true ⟨List.Subset.refl _, List.Subset.refl _⟩

/-- The value of a key that is there is one of the values. -/
theorem get_mem (h : key ∈ values.map Prod.fst) : (key, get values key) ∈ values := by
  obtain ⟨pair, hmem, rfl⟩ := List.mem_map.1 h
  have hsome := List.lookup_isSome_iff.2 ⟨pair, hmem, beq_self_eq_true _⟩
  obtain ⟨value, hvalue⟩ := Option.isSome_iff_exists.1 hsome
  obtain ⟨before, after, hsplit, -⟩ := List.lookup_eq_some_iff.1 hvalue
  rw [get, hvalue, hsplit]
  simp

/-- Effective values that are all there can be written in any order of their keys. -/
theorem select_writable (heffective : validateEffectiveValues values = .ok ())
    (hsub : order ⊆ values.map Prod.fst) (hnodup : order.Nodup)
    (hkeys : ∀ key ∈ order, matchesKey key.toList = true) : Writable (select values order) := by
  have hall := List.all_eq_true.1 (require_ok heffective)
  have hpair : ∀ pair ∈ select values order, pair.1 ∈ order ∧ pair ∈ values := by
    intro pair hmem
    obtain ⟨key, hkey, rfl⟩ := List.mem_map.1 hmem
    exact ⟨hkey, get_mem (hsub hkey)⟩
  refine ⟨?_, ?_, ?_, ?_⟩
  · rw [select_map_fst]
    exact hnodup
  · intro pair hmem
    exact hkeys pair.1 (hpair pair hmem).1
  · intro pair hmem c hc
    have hvalue := hall pair (hpair pair hmem).2
    simp only [Bool.and_eq_true, Bool.not_eq_true', List.any_eq_false] at hvalue
    exact Bool.eq_false_iff.2 (hvalue.2 c hc)
  · intro pair hmem
    have hvalue := hall pair (hpair pair hmem).2
    simp only [Bool.and_eq_true, bne_iff_ne] at hvalue
    exact hvalue.1.1

/-- A selection of effective values is effective. -/
theorem select_effective (heffective : validateEffectiveValues values = .ok ())
    (hsub : order ⊆ values.map Prod.fst) : validateEffectiveValues (select values order) =
      .ok () := by
  have hall := List.all_eq_true.1 (require_ok heffective)
  refine if_pos (List.all_eq_true.2 fun pair hmem => ?_)
  obtain ⟨key, hkey, rfl⟩ := List.mem_map.1 hmem
  exact hall _ (get_mem (hsub hkey))

/-! ### Checks of the parts together -/

/-- The checks on the static values look at the values of their keys only. -/
theorem validateGatewayStaticEnvironment_congr
    (heffective : validateEffectiveValues values' = .ok ())
    (hkeys : hasKeys values' gatewayStaticKeyOrder = true)
    (hsame : ∀ key ∈ gatewayStaticKeyOrder, get values' key = get values key)
    (h : validateGatewayStaticEnvironment lib values = .ok values) :
    validateGatewayStaticEnvironment lib values' = .ok values' := by
  have hcamera := hsame "MTX_PATHS_CAMERA_SOURCE" (by decide)
  have hclear := hsame "MTX_PATHS_CLEAR_SOURCE" (by decide)
  have hudp := hsame "MTX_WEBRTCLOCALUDPADDRESS" (by decide)
  have htcp := hsame "MTX_WEBRTCLOCALTCPADDRESS" (by decide)
  have hhosts := hsame "MTX_WEBRTCADDITIONALHOSTS" (by decide)
  have hclient := hsame "MTX_WEBRTCICESERVERS2_0_CLIENTONLY" (by decide)
  obtain ⟨⟨⟩, -, h⟩ := ok_of_bind h
  obtain ⟨⟨⟩, -, h⟩ := ok_of_bind h
  obtain ⟨⟨⟩, h₁, h⟩ := ok_of_bind h
  obtain ⟨⟨⟩, h₂, h⟩ := ok_of_bind h
  obtain ⟨⟨⟩, h₃, h⟩ := ok_of_bind h
  obtain ⟨udp, h₄, h⟩ := ok_of_bind h
  obtain ⟨tcp, h₅, h⟩ := ok_of_bind h
  obtain ⟨⟨⟩, h₆, h⟩ := ok_of_bind h
  rw [validateGatewayStaticEnvironment, heffective, hkeys, hcamera, hclear, hudp, htcp, hhosts,
    hclient, h₁, h₂, h₃, h₄, h₅]
  dsimp only [bind, Except.bind] at h ⊢
  rw [h₆]
  cases haddress : lib.ipAddress (get values "MTX_WEBRTCADDITIONALHOSTS") with
  | none =>
      rw [haddress] at h
      cases h
  | some address =>
      rw [haddress] at h
      obtain ⟨⟨⟩, h₇, h⟩ := ok_of_bind h
      obtain ⟨⟨⟩, h₈, -⟩ := ok_of_bind h
      rw [require, if_pos rfl]
      dsimp only
      rw [h₇]
      dsimp only
      rw [h₈]
      rfl

/-- So do the checks on the values of the relay. -/
theorem validateRuntimeTurnEnvironment_congr
    (heffective : validateEffectiveValues values' = .ok ())
    (hkeys : hasKeys values' runtimeTurnKeyOrder = true)
    (hsame : ∀ key ∈ runtimeTurnKeyOrder, get values' key = get values key)
    (h : validateRuntimeTurnEnvironment lib values = .ok values) :
    validateRuntimeTurnEnvironment lib values' = .ok values' := by
  have hurl := hsame "MTX_WEBRTCICESERVERS2_0_URL" (by decide)
  have husername := hsame "MTX_WEBRTCICESERVERS2_0_USERNAME" (by decide)
  have hpassword := hsame "MTX_WEBRTCICESERVERS2_0_PASSWORD" (by decide)
  obtain ⟨⟨⟩, -, h⟩ := ok_of_bind h
  obtain ⟨⟨⟩, -, h⟩ := ok_of_bind h
  obtain ⟨⟨⟩, h₁, h⟩ := ok_of_bind h
  obtain ⟨⟨⟩, h₂, -⟩ := ok_of_bind h
  have h₂ := require_ok h₂
  simp only [List.all_cons, List.all_nil, Bool.and_true] at h₂
  rw [validateRuntimeTurnEnvironment, heffective, hkeys, hurl, h₁]
  simp only [List.all_cons, List.all_nil, Bool.and_true, husername, hpassword]
  rw [h₂]
  rfl

/-- The keys of valid static values. -/
theorem keys_of_static (h : validateGatewayStaticEnvironment lib static = .ok out) :
    validateEffectiveValues static = .ok () ∧ hasKeys static gatewayStaticKeyOrder = true := by
  obtain ⟨⟨⟩, heffective, h⟩ := ok_of_bind h
  obtain ⟨⟨⟩, hkeys, -⟩ := ok_of_bind h
  exact ⟨heffective, require_ok hkeys⟩

theorem keys_of_runtime (h : validateRuntimeTurnEnvironment lib turn = .ok out) :
    validateEffectiveValues turn = .ok () ∧ hasKeys turn runtimeTurnKeyOrder = true := by
  obtain ⟨⟨⟩, heffective, h⟩ := ok_of_bind h
  obtain ⟨⟨⟩, hkeys, -⟩ := ok_of_bind h
  exact ⟨heffective, require_ok hkeys⟩

/-- A key of the one environment is none of the other. -/
theorem static_not_runtime : ∀ key ∈ gatewayStaticKeyOrder, key ∉ runtimeTurnKeyOrder := by
  decide

theorem lookup_of_not_key (h : key ∉ values.map Prod.fst) : values.lookup key = none := by
  refine List.lookup_eq_none_iff.2 fun pair hmem => ?_
  rw [bne_iff_ne]
  rintro rfl
  exact h (List.mem_map_of_mem hmem)

theorem get_append_of_not_key (h : key ∉ static.map Prod.fst) :
    get (static ++ turn) key = get turn key := by
  rw [get, get, List.lookup_append, lookup_of_not_key h]
  rfl

theorem get_append_of_key (h : key ∈ static.map Prod.fst) :
    get (static ++ turn) key = get static key := by
  obtain ⟨pair, hmem, rfl⟩ := List.mem_map.1 h
  have hsome := List.lookup_isSome_iff.2 ⟨pair, hmem, beq_self_eq_true _⟩
  obtain ⟨value, hvalue⟩ := Option.isSome_iff_exists.1 hsome
  rw [get, get, List.lookup_append, hvalue]
  rfl

/-- Two valid parts are a valid whole. -/
theorem validateSplitGatewayEnvironment_ok
    (hstatic : validateGatewayStaticEnvironment lib static = .ok static)
    (hturn : validateRuntimeTurnEnvironment lib turn = .ok turn) :
    validateSplitGatewayEnvironment lib static turn = .ok (static ++ turn) := by
  obtain ⟨hseffective, hskeys⟩ := keys_of_static hstatic
  obtain ⟨hteffective, htkeys⟩ := keys_of_runtime hturn
  obtain ⟨hssub, hssup⟩ := keys_of_hasKeys hskeys
  obtain ⟨htsub, htsup⟩ := keys_of_hasKeys htkeys
  have heffective : validateEffectiveValues (static ++ turn) = .ok () := by
    refine if_pos ?_
    rw [List.all_append, require_ok hseffective, require_ok hteffective]
    rfl
  have hkeys : hasKeys (static ++ turn) gatewayKeys = true := by
    rw [hasKeys, List.map_append, gatewayKeys]
    refine decide_eq_true ⟨?_, ?_⟩
    · exact List.append_subset.2 ⟨fun key hkey => List.mem_append_left _ (hssub hkey),
        fun key hkey => List.mem_append_right _ (htsub hkey)⟩
    · exact List.append_subset.2 ⟨fun key hkey => List.mem_append_left _ (hssup hkey),
        fun key hkey => List.mem_append_right _ (htsup hkey)⟩
  have hgateway : validateGatewayStaticEnvironment lib
      (select (static ++ turn) gatewayStaticKeyOrder) =
        .ok (select (static ++ turn) gatewayStaticKeyOrder) := by
    refine validateGatewayStaticEnvironment_congr (select_effective heffective ?_) hasKeys_select
      (fun key hkey => ?_) hstatic
    · rw [List.map_append]
      exact fun key hkey => List.mem_append_left _ (hssup hkey)
    · rw [get_select hkey, get_append_of_key (hssup hkey)]
  have hruntime : validateRuntimeTurnEnvironment lib
      (select (static ++ turn) runtimeTurnKeyOrder) =
        .ok (select (static ++ turn) runtimeTurnKeyOrder) := by
    refine validateRuntimeTurnEnvironment_congr (select_effective heffective ?_) hasKeys_select
      (fun key hkey => ?_) hturn
    · rw [List.map_append]
      exact fun key hkey => List.mem_append_right _ (htsup hkey)
    · rw [get_select hkey, get_append_of_not_key fun hmem =>
        static_not_runtime key (hssub hmem) hkey]
  rw [validateSplitGatewayEnvironment, hstatic]
  dsimp only [bind, Except.bind]
  rw [hturn]
  dsimp only
  rw [validateGatewayEnvironment, heffective, hkeys]
  dsimp only [bind, Except.bind, require]
  rw [if_pos rfl]
  dsimp only
  rw [hgateway]
  dsimp only
  rw [hruntime]
  rfl

theorem validateSplitGatewayEnvironment_parts
    (h : validateSplitGatewayEnvironment lib static turn = .ok out) :
    validateGatewayStaticEnvironment lib static = .ok static ∧
      validateRuntimeTurnEnvironment lib turn = .ok turn := by
  obtain ⟨static', hstatic, h⟩ := ok_of_bind h
  obtain ⟨turn', hturn, -⟩ := ok_of_bind h
  obtain rfl := validateGatewayStaticEnvironment_self hstatic
  obtain rfl := validateRuntimeTurnEnvironment_self hturn
  exact ⟨hstatic, hturn⟩

end Checks

/-! ## What a plan rests on -/

/-- The bytes of a file with these values. -/
def bodyOf (values : Values) : List UInt8 := Utf8.encode (String.ofList (writtenText values))

/-- The file of the relay is empty, or says valid values. -/
def RuntimeAgrees (p : Splitter) (runtime : Option File) : Prop :=
  trustedFileHasContent runtime = .ok false ∨
    trustedFileHasContent runtime = .ok true ∧ ∃ turn,
      parseTrustedEnvironment (p.seen runtime) = .ok turn ∧
      validateRuntimeTurnEnvironment p.lib turn = .ok turn

/-- What was read and checked before something is written. -/
inductive Planned (p : Splitter) (gateway runtime : Option File) : Plan → Prop where
  | combined {values : Values} {changed : Bool}
      (hread : migratedValues p gateway = .ok (values, changed))
      (hvalid : validateGatewayEnvironment p.lib values = .ok values)
      (hempty : trustedFileHasContent runtime = .ok false) (howner : p.ownerControlled = true) :
      Planned p gateway runtime ⟨some (bodyOf (select values gatewayStaticKeyOrder)),
        some (bodyOf (select values runtimeTurnKeyOrder))⟩
  | kept {values turn : Values} {changed : Bool}
      (hread : migratedValues p gateway = .ok (values, changed))
      (hvalid : validateGatewayEnvironment p.lib values = .ok values)
      (hcontent : trustedFileHasContent runtime = .ok true)
      (hparse : parseTrustedEnvironment (p.seen runtime) = .ok turn)
      (hturn : validateRuntimeTurnEnvironment p.lib turn = .ok turn) :
      Planned p gateway runtime ⟨some (bodyOf (select values gatewayStaticKeyOrder)), none⟩
  | static {values : Values} {changed : Bool}
      (hread : migratedValues p gateway = .ok (values, changed))
      (hvalid : validateGatewayStaticEnvironment p.lib values = .ok values)
      (hruntime : RuntimeAgrees p runtime) :
      Planned p gateway runtime
        ⟨if changed then some (bodyOf (select values gatewayStaticKeyOrder)) else none, none⟩

section Planned

variable {p : Splitter} {gateway runtime : Option File} {values turn : Values}
  {order : List String} {changed : Bool} {t : Plan}

theorem serialized_eq (h : order ⊆ values.map Prod.fst) :
    serialized values order = .ok (bodyOf (select values order)) := by
  rw [serialized, serializeEnvironment_eq h]
  rfl

theorem serialized_select : serialized (select values order) order =
    .ok (bodyOf (select values order)) := by
  rw [serialized_eq (by rw [select_map_fst]; exact List.Subset.refl _), select_select]

theorem validateGatewayEnvironment_self {lib : Library} {out : Values}
    (h : validateGatewayEnvironment lib values = .ok out) : out = values := by
  obtain ⟨-, -, h⟩ := ok_of_bind h
  obtain ⟨-, -, h⟩ := ok_of_bind h
  obtain ⟨-, -, h⟩ := ok_of_bind h
  obtain ⟨-, -, h⟩ := ok_of_bind h
  exact (Except.ok.inj h).symm

/-- The end of the branch in which the values of the relay have a file already. -/
theorem static_end (hstatic : validateGatewayStaticEnvironment p.lib values = .ok values)
    (h : (if changed = true then do
        let body ← serialized values gatewayStaticKeyOrder
        return Plan.mk (some body) none
      else return Plan.mk none none) = .ok t) :
    t = ⟨if changed then some (bodyOf (select values gatewayStaticKeyOrder)) else none,
      none⟩ := by
  cases changed with
  | true =>
      rw [if_pos rfl] at h
      obtain ⟨body, hbody, h₁⟩ := ok_of_bind h
      cases hbody.symm.trans (serialized_eq (keys_of_hasKeys (keys_of_static hstatic).2).2)
      cases h₁
      rfl
  | false =>
      cases h
      rfl

theorem planned_of_plan (h : plan p gateway runtime = .ok t) : Planned p gateway runtime t := by
  obtain ⟨⟨values, changed⟩, hread, h⟩ := ok_of_bind h
  dsimp only at h
  split at h
  next =>
    obtain ⟨values', hvalid, h₁⟩ := ok_of_bind h
    have hvalues := validateGatewayEnvironment_self (of_checked hvalid)
    rw [hvalues] at hvalid
    obtain ⟨content, hcontent, h₂⟩ := ok_of_bind h₁
    cases content with
    | true =>
        rw [if_pos rfl] at h₂
        obtain ⟨turn, hparse, h₃⟩ := ok_of_bind h₂
        obtain ⟨turn', hturn, h₄⟩ := ok_of_bind h₃
        have hturns := validateRuntimeTurnEnvironment_self (of_checked hturn)
        rw [hturns] at hturn
        obtain ⟨_, -, h₅⟩ := ok_of_bind h₄
        obtain ⟨body, hbody, h₆⟩ := ok_of_bind h₅
        cases hbody.symm.trans serialized_select
        cases h₆
        exact .kept hread (of_checked hvalid) (of_checked hcontent) (of_checked hparse)
          (of_checked hturn)
    | false =>
        rw [if_neg Bool.false_ne_true] at h₂
        obtain ⟨turnBody, hturnBody, h₃⟩ := ok_of_bind h₂
        obtain ⟨_, howner, h₄⟩ := ok_of_bind h₃
        obtain ⟨_, -, h₅⟩ := ok_of_bind h₄
        obtain ⟨body, hbody, h₆⟩ := ok_of_bind h₅
        cases hturnBody.symm.trans serialized_select
        cases hbody.symm.trans serialized_select
        cases h₆
        exact .combined hread (of_checked hvalid) (of_checked hcontent)
          (require_ok (of_checked howner))
  next =>
    obtain ⟨_, -, h₁⟩ := ok_of_bind h
    obtain ⟨static, hstatic, h₂⟩ := ok_of_bind h₁
    have hself := validateGatewayStaticEnvironment_self (of_checked hstatic)
    rw [hself] at hstatic h₂
    obtain ⟨content, hcontent, h₃⟩ := ok_of_bind h₂
    cases content with
    | true =>
        rw [if_pos rfl] at h₃
        obtain ⟨turn, hparse, h₄⟩ := ok_of_bind h₃
        obtain ⟨_, hsplit, h₅⟩ := ok_of_bind h₄
        rw [static_end (of_checked hstatic) h₅]
        exact .static hread (of_checked hstatic) (.inr ⟨of_checked hcontent, turn,
          of_checked hparse, (validateSplitGatewayEnvironment_parts (of_checked hsplit)).2⟩)
    | false =>
        rw [if_neg Bool.false_ne_true] at h₃
        rw [static_end (of_checked hstatic) h₃]
        exact .static hread (of_checked hstatic) (.inl (of_checked hcontent))

theorem checked_of {α : Type} {r : Except String α} {a : α} (h : r = .ok a) :
    checked r = .ok a := by
  rw [h]
  rfl

theorem checked_require {message : String} : checked (require true message) = .ok () := rfl

/-- The values of a valid environment have all the keys. -/
theorem keys_of_gateway {lib : Library}
    (h : validateGatewayEnvironment lib values = .ok values) :
    hasKeys values gatewayKeys = true := (validateGatewayEnvironment_parts h).2.1

/-- Static values have no key of the relay. -/
theorem not_gatewayKeys {lib : Library}
    (h : validateGatewayStaticEnvironment lib values = .ok values) :
    hasKeys values gatewayKeys = false := by
  cases hkeys : hasKeys values gatewayKeys with
  | false => rfl
  | true =>
      have hsub := (keys_of_hasKeys (keys_of_static h).2).1
      have hmem := hsub ((keys_of_hasKeys hkeys).2
        (show "MTX_WEBRTCICESERVERS2_0_URL" ∈ gatewayKeys by decide))
      revert hmem
      decide

/-- The checks of a plan are all there is to it. -/
theorem Planned.plan (h : Planned p gateway runtime t) :
    MediaConfig.plan p gateway runtime = .ok t := by
  cases h with
  | @combined values changed hread hvalid hempty howner =>
      obtain ⟨-, hkeys, hstatic, hturn⟩ := validateGatewayEnvironment_parts hvalid
      have hsplit := checked_of (validateSplitGatewayEnvironment_ok hstatic hturn)
      rw [MediaConfig.plan, hread]
      dsimp only [bind, Except.bind]
      rw [if_pos hkeys, checked_of hvalid]
      dsimp only
      rw [checked_of hempty]
      dsimp only
      rw [if_neg Bool.false_ne_true, serialized_select]
      dsimp only
      rw [Splitter.requireOwner, howner, checked_require]
      dsimp only
      rw [hsplit]
      dsimp only
      rw [serialized_select]
      rfl
  | @kept values turn changed hread hvalid hcontent hparse hturn =>
      obtain ⟨-, hkeys, hstatic, -⟩ := validateGatewayEnvironment_parts hvalid
      have hsplit := checked_of (validateSplitGatewayEnvironment_ok hstatic hturn)
      rw [MediaConfig.plan, hread]
      dsimp only [bind, Except.bind]
      rw [if_pos hkeys, checked_of hvalid]
      dsimp only
      rw [checked_of hcontent]
      dsimp only
      rw [if_pos rfl, checked_of hparse]
      dsimp only
      rw [checked_of hturn]
      dsimp only
      rw [hsplit]
      dsimp only
      rw [serialized_select]
      rfl
  | @static values changed hread hvalid hruntime =>
      have hkeys := (keys_of_static hvalid).2
      have hend : (if changed = true then do
          let body ← serialized values gatewayStaticKeyOrder
          return Plan.mk (some body) none
        else return Plan.mk none none) = (.ok ⟨if changed then
          some (bodyOf (select values gatewayStaticKeyOrder)) else none, none⟩ :
            Except MigrateError Plan) := by
        cases changed with
        | true =>
            rw [serialized_eq (keys_of_hasKeys hkeys).2]
            rfl
        | false => rfl
      rw [MediaConfig.plan, hread]
      dsimp only [bind, Except.bind]
      rw [if_neg (by simp [not_gatewayKeys hvalid]), hkeys, checked_require]
      dsimp only
      rw [checked_of hvalid]
      dsimp only
      rcases hruntime with hempty | ⟨hcontent, turn, hparse, hturn⟩
      · rw [checked_of hempty]
        exact hend
      · rw [checked_of hcontent]
        dsimp only
        rw [if_pos rfl, checked_of hparse]
        dsimp only
        rw [checked_of (validateSplitGatewayEnvironment_ok hvalid hturn)]
        exact hend

/-! ## What is written is settled -/

theorem bodyOf_ne_nil (hne : values ≠ []) : bodyOf values ≠ [] := by
  have htext : writtenText values ≠ [] := by
    intro hnil
    have hlast := getLast?_writtenText hne
    rw [hnil] at hlast
    cases hlast
  have hlength := Utf8.length_le_encode (writtenText values)
  rw [← List.length_pos_iff] at htext
  exact List.length_pos_iff.1 (Nat.lt_of_lt_of_le htext hlength)

theorem select_ne_nil (hne : order ≠ []) : select values order ≠ [] := by
  intro hnil
  have hnames := congrArg (List.map Prod.fst) hnil
  rw [select_map_fst] at hnames
  exact hne hnames

/-- A file of values that can be written, and is short enough, is read back. -/
theorem parse_writtenFile (h : Writable values) (hne : values ≠ [])
    (hfits : (bodyOf values).length ≤ maxConfigBytes) :
    parseTrustedEnvironment (some (writtenFile (bodyOf values))) = .ok values := by
  have hparse := parseBody_written h
  rw [if_neg (by rw [not_or, not_lt]; exact ⟨hne, hfits⟩)] at hparse
  exact hparse

/-- The selected values can be written. -/
theorem gatewayStatic_writable (heffective : validateEffectiveValues values = .ok ())
    (hsub : gatewayStaticKeyOrder ⊆ values.map Prod.fst) :
    Writable (select values gatewayStaticKeyOrder) :=
  select_writable heffective hsub (by decide) (by decide)

theorem runtimeTurn_writable (heffective : validateEffectiveValues values = .ok ())
    (hsub : runtimeTurnKeyOrder ⊆ values.map Prod.fst) :
    Writable (select values runtimeTurnKeyOrder) :=
  select_writable heffective hsub (by decide) (by decide)

/-- Static values in their order are under the keys of today. -/
theorem migratedValues_static (h : Writable (select values gatewayStaticKeyOrder))
    (hfits : (bodyOf (select values gatewayStaticKeyOrder)).length ≤ maxConfigBytes) :
    migratedValues p (some (writtenFile (bodyOf (select values gatewayStaticKeyOrder)))) =
      .ok (select values gatewayStaticKeyOrder, false) := by
  have hlegacy : (select values gatewayStaticKeyOrder).lookup legacyGatewaySourceKey = none := by
    refine lookup_of_not_key ?_
    rw [select_map_fst]
    decide
  have hclear : ((select values gatewayStaticKeyOrder).lookup "MTX_PATHS_CLEAR_SOURCE").isSome =
      true := rfl
  rw [migratedValues, parse_writtenFile h (select_ne_nil (by decide)) hfits, checked_of rfl]
  dsimp only [bind, Except.bind]
  rw [migrateLegacySourceKey, hlegacy]
  dsimp only
  rw [migrateClearSourceKey, hclear]
  rfl

/-- Nothing is left to do: the gateway's file has valid static values under the keys of today,
and the file of the relay is empty or has valid values. -/
def Settled (p : Splitter) (gateway runtime : Option File) : Prop :=
  ∃ static, migratedValues p gateway = .ok (static, false) ∧
    validateGatewayStaticEnvironment p.lib static = .ok static ∧ RuntimeAgrees p runtime

theorem Settled.plan (h : Settled p gateway runtime) :
    MediaConfig.plan p gateway runtime = .ok ⟨none, none⟩ := by
  obtain ⟨static, hread, hvalid, hruntime⟩ := h
  exact Planned.plan (.static hread hvalid hruntime)

theorem seen_writtenFile (howner : p.ownerControlled = true) (body : List UInt8) :
    p.seen (some (writtenFile body)) = some (writtenFile body) := by
  rw [Splitter.seen, Option.map_some, howner]
  rfl

theorem trustedFileHasContent_written {body : List UInt8} (hne : body ≠ [])
    (hfits : body.length ≤ maxConfigBytes) :
    trustedFileHasContent (some (writtenFile body)) = .ok true := by
  have hcheck : (!(!(writtenFile body).regular || !(writtenFile body).trusted ||
      decide (maxConfigBytes < (writtenFile body).body.length))) = true := by
    have hshort : decide (maxConfigBytes < body.length) = false :=
      decide_eq_false (Nat.not_lt.2 hfits)
    show (!(!true || !true || decide (maxConfigBytes < body.length))) = true
    rw [hshort]
    rfl
  have hcontent : (!(writtenFile body).body.isEmpty) = true := by
    simp [writtenFile, hne]
  rw [trustedFileHasContent, hcheck, hcontent]
  rfl

/-- The new file of the relay says valid values. -/
theorem runtimeAgrees_written (hvalid : validateGatewayEnvironment p.lib values = .ok values)
    (howner : p.ownerControlled = true)
    (hfits : (bodyOf (select values runtimeTurnKeyOrder)).length ≤ maxConfigBytes) :
    trustedFileHasContent (some (writtenFile (bodyOf (select values runtimeTurnKeyOrder)))) =
      .ok true ∧
    parseTrustedEnvironment
      (p.seen (some (writtenFile (bodyOf (select values runtimeTurnKeyOrder))))) =
        .ok (select values runtimeTurnKeyOrder) ∧
    validateRuntimeTurnEnvironment p.lib (select values runtimeTurnKeyOrder) =
      .ok (select values runtimeTurnKeyOrder) := by
  obtain ⟨heffective, hkeys, -, hturn⟩ := validateGatewayEnvironment_parts hvalid
  have hsub : runtimeTurnKeyOrder ⊆ values.map Prod.fst := fun key hkey =>
    (keys_of_hasKeys hkeys).2 (List.mem_append_right _ hkey)
  have hne : select values runtimeTurnKeyOrder ≠ [] := select_ne_nil (by decide)
  refine ⟨?_, ?_, hturn⟩
  · exact trustedFileHasContent_written (bodyOf_ne_nil hne) hfits
  · have hparse := parse_writtenFile (runtimeTurn_writable heffective hsub) hne hfits
    rw [seen_writtenFile howner]
    exact hparse

/-- The new file of the gateway says valid static values. -/
theorem gateway_written (hvalid : validateGatewayStaticEnvironment p.lib
      (select values gatewayStaticKeyOrder) = .ok (select values gatewayStaticKeyOrder))
    (h : Writable (select values gatewayStaticKeyOrder))
    (hfits : (bodyOf (select values gatewayStaticKeyOrder)).length ≤ maxConfigBytes)
    (hruntime : RuntimeAgrees p runtime) :
    Settled p (some (writtenFile (bodyOf (select values gatewayStaticKeyOrder)))) runtime :=
  ⟨_, migratedValues_static h hfits, hvalid, hruntime⟩

/-- No file is longer than a file may be. -/
def Plan.Fits (t : Plan) : Prop :=
  (∀ body, t.gateway = some body → body.length ≤ maxConfigBytes) ∧
    ∀ body, t.runtime = some body → body.length ≤ maxConfigBytes

/-- Once the file of the relay is written, a run comes to the same as before. -/
theorem Planned.afterRuntime (h : Planned p gateway runtime t)
    (hfits : ∀ body, t.runtime = some body → body.length ≤ maxConfigBytes) :
    Planned p gateway (afterWrite runtime t.runtime) ⟨t.gateway, none⟩ := by
  cases h with
  | combined hread hvalid hempty howner =>
      obtain ⟨hcontent, hparse, hturn⟩ := runtimeAgrees_written hvalid howner (hfits _ rfl)
      exact .kept hread hvalid hcontent hparse hturn
  | kept hread hvalid hcontent hparse hturn => exact .kept hread hvalid hcontent hparse hturn
  | static hread hvalid hruntime => exact .static hread hvalid hruntime

theorem Planned.runtimeAgrees (h : Planned p gateway runtime t)
    (hfits : ∀ body, t.runtime = some body → body.length ≤ maxConfigBytes) :
    RuntimeAgrees p (afterWrite runtime t.runtime) := by
  cases h with
  | combined hread hvalid hempty howner =>
      obtain ⟨hcontent, hparse, hturn⟩ := runtimeAgrees_written hvalid howner (hfits _ rfl)
      exact .inr ⟨hcontent, _, hparse, hturn⟩
  | kept hread hvalid hcontent hparse hturn => exact .inr ⟨hcontent, _, hparse, hturn⟩
  | static hread hvalid hruntime => exact hruntime

/-- What a run comes to is settled. -/
theorem Planned.settled (h : Planned p gateway runtime t) (hfits : t.Fits) :
    Settled p (afterWrite gateway t.gateway) (afterWrite runtime t.runtime) := by
  have hruntime := h.runtimeAgrees hfits.2
  cases h with
  | @combined values changed hread hvalid hempty howner =>
      obtain ⟨heffective, hkeys, hstatic, -⟩ := validateGatewayEnvironment_parts hvalid
      exact gateway_written hstatic (gatewayStatic_writable heffective fun key hkey =>
        (keys_of_hasKeys hkeys).2 (List.mem_append_left _ hkey)) (hfits.1 _ rfl) hruntime
  | @kept values turn changed hread hvalid hcontent hparse hturn =>
      obtain ⟨heffective, hkeys, hstatic, -⟩ := validateGatewayEnvironment_parts hvalid
      exact gateway_written hstatic (gatewayStatic_writable heffective fun key hkey =>
        (keys_of_hasKeys hkeys).2 (List.mem_append_left _ hkey)) (hfits.1 _ rfl) hruntime
  | @static values changed hread hvalid hagrees =>
      cases changed with
      | false => exact ⟨values, hread, hvalid, hruntime⟩
      | true =>
          obtain ⟨heffective, hkeys⟩ := keys_of_static hvalid
          have hsub := (keys_of_hasKeys hkeys).2
          exact gateway_written (validateGatewayStaticEnvironment_congr
            (select_effective heffective hsub) hasKeys_select
            (fun key hkey => get_select hkey) hvalid) (gatewayStatic_writable heffective hsub)
            (hfits.1 _ rfl) hruntime

/-- What a migration is for.  The gateway's file says the static values it said before, under the
keys of today, and they are valid.  The file of the relay says what it said before, or else what
the gateway's file said.  A further run has nothing to do. -/
structure Migrated (p : Splitter) (gateway runtime gateway' runtime' : Option File) : Prop where
  values : ∃ before after static, parseTrustedEnvironment gateway = .ok before ∧
    KeepsValues p before after ∧ parseTrustedEnvironment gateway' = .ok static ∧
    validateGatewayStaticEnvironment p.lib static = .ok static ∧
    ∀ key ∈ gatewayStaticKeyOrder, get static key = get after key
  kept : trustedFileHasContent runtime = .ok true → runtime' = runtime
  moved : trustedFileHasContent runtime = .ok false → runtime' = runtime ∨
    ∃ before turn, parseTrustedEnvironment gateway = .ok before ∧
      parseTrustedEnvironment (p.seen runtime') = .ok turn ∧
      validateRuntimeTurnEnvironment p.lib turn = .ok turn ∧
      ∀ key ∈ runtimeTurnKeyOrder, get turn key = get before key
  agrees : RuntimeAgrees p runtime'
  quiet : MediaConfig.plan p gateway' runtime' = .ok ⟨none, none⟩

/-- A migration leaves the values of the relay alone. -/
theorem KeepsValues.get_turn {before after : Values} (h : KeepsValues p before after) {key : String}
    (hkey : key ∈ runtimeTurnKeyOrder) : get after key = get before key := by
  have hother : ∀ key ∈ runtimeTurnKeyOrder, key ≠ "MTX_PATHS_CAMERA_SOURCE" ∧
      key ≠ legacyGatewaySourceKey ∧ key ≠ "MTX_PATHS_CLEAR_SOURCE" := by
    decide
  obtain ⟨hcamera, hlegacy, hclear⟩ := hother key hkey
  rw [get, get, h.1 key hcamera hlegacy hclear]

/-- The values of a file that needs no change are those that are read. -/
theorem parse_of_unchanged (h : migratedValues p gateway = .ok (values, false)) :
    parseTrustedEnvironment gateway = .ok values := by
  obtain ⟨before, hread, h₁⟩ := ok_of_bind h
  obtain ⟨⟨legacy, sourceKeyMigrated⟩, hlegacy, h₂⟩ := ok_of_bind h₁
  obtain ⟨⟨clear, clearSourceMigrated⟩, hclear, h₃⟩ := ok_of_bind h₂
  have hflags : (clear, sourceKeyMigrated || clearSourceMigrated) = (values, false) :=
    Except.ok.inj h₃
  obtain ⟨hvalues, hflags⟩ := Prod.mk.inj hflags
  obtain ⟨hsource, hclearSource⟩ := Bool.or_eq_false_iff.1 hflags
  subst hvalues hsource hclearSource
  have hlegacy : legacy = before := by
    unfold migrateLegacySourceKey at hlegacy
    split at hlegacy
    next =>
      cases hlegacy
      rfl
    next => split at hlegacy <;> cases hlegacy
  have hclear : clear = legacy := by
    unfold migrateClearSourceKey at hclear
    split at hclear
    next =>
      cases hclear
      rfl
    next =>
      split at hclear
      next =>
        cases hclear
        rfl
      next =>
        split at hclear
        next => cases hclear
        next => split at hclear <;> cases hclear
  rw [hclear, hlegacy]
  exact of_checked hread

/-- What a run comes to is what it is for. -/
theorem Planned.migrated (h : Planned p gateway runtime t) (hfits : t.Fits) :
    Migrated p gateway runtime (afterWrite gateway t.gateway) (afterWrite runtime t.runtime) := by
  have hsettled := h.settled hfits
  have hagrees := h.runtimeAgrees hfits.2
  have hstatic : ∀ {values : Values}, validateEffectiveValues values = .ok () →
      gatewayStaticKeyOrder ⊆ values.map Prod.fst →
      (bodyOf (select values gatewayStaticKeyOrder)).length ≤ maxConfigBytes →
      parseTrustedEnvironment
        (some (writtenFile (bodyOf (select values gatewayStaticKeyOrder)))) =
          .ok (select values gatewayStaticKeyOrder) := fun heffective hsub hlength =>
    parse_writtenFile (gatewayStatic_writable heffective hsub) (select_ne_nil (by decide)) hlength
  cases h with
  | @combined values changed hread hvalid hempty howner =>
      obtain ⟨before, hbefore, hkeeps⟩ := migratedValues_keeps hread
      obtain ⟨heffective, hkeys, hvalidStatic, -⟩ := validateGatewayEnvironment_parts hvalid
      obtain ⟨-, hparse, hturn⟩ := runtimeAgrees_written hvalid howner (hfits.2 _ rfl)
      have hsub := hstatic heffective (fun key hkey => (keys_of_hasKeys hkeys).2
        (List.mem_append_left _ hkey)) (hfits.1 _ rfl)
      exact ⟨⟨before, values, _, hbefore, hkeeps, hsub, hvalidStatic,
          fun key hkey => get_select hkey⟩,
        fun hcontent => (by cases hempty.symm.trans hcontent),
        fun _ => .inr ⟨before, _, hbefore, hparse, hturn, fun key hkey =>
          (get_select hkey).trans (hkeeps.get_turn hkey)⟩, hagrees, hsettled.plan⟩
  | @kept values turn changed hread hvalid hcontent hparse hturn =>
      obtain ⟨before, hbefore, hkeeps⟩ := migratedValues_keeps hread
      obtain ⟨heffective, hkeys, hvalidStatic, -⟩ := validateGatewayEnvironment_parts hvalid
      have hsub := hstatic heffective (fun key hkey => (keys_of_hasKeys hkeys).2
        (List.mem_append_left _ hkey)) (hfits.1 _ rfl)
      exact ⟨⟨before, values, _, hbefore, hkeeps, hsub, hvalidStatic,
        fun key hkey => get_select hkey⟩, fun _ => rfl, fun _ => .inl rfl, hagrees, hsettled.plan⟩
  | @static values changed hread hvalid hruntime =>
      obtain ⟨before, hbefore, hkeeps⟩ := migratedValues_keeps hread
      refine ⟨⟨before, values, ?_⟩, fun _ => rfl, fun _ => .inl rfl, hagrees, hsettled.plan⟩
      cases changed with
      | false =>
          exact ⟨values, hbefore, hkeeps, parse_of_unchanged hread, hvalid, fun _ _ => rfl⟩
      | true =>
          obtain ⟨heffective, hkeys⟩ := keys_of_static hvalid
          have hsub := (keys_of_hasKeys hkeys).2
          exact ⟨_, hbefore, hkeeps, hstatic heffective hsub (hfits.1 _ rfl),
            validateGatewayStaticEnvironment_congr (select_effective heffective hsub)
              hasKeys_select (fun key hkey => get_select hkey) hvalid,
            fun key hkey => get_select hkey⟩

end Planned

end MediaConfig

end GateController
