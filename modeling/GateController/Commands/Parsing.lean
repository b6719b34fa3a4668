import GateController.Commands.Executor

/-!
# What a direct command must say

`_parse` looks at the fields of a payload in one expression and reads the expiry in a
`try`.  Two kinds of payload get past both: a command that cannot be looked up in a
set, and an expiry whose instant is outside the calendar.  Every other payload is
either read as the command it denotes or refused.
-/

namespace GateController

open Data Effects Proc

namespace DirectCommandExecutor

/-- The text of a kind of command. -/
def Kind.text : Kind → String
  | .openGate => "open_gate"
  | .playPrompt => "play_prompt"

/-- The fields name a controller, a kind of command, a key and, perhaps, a prompt. -/
structure Stated (fields : Fields) (controllerId : String) (kind : Kind)
    (idempotencyKey : String) (promptKey : Option String) : Prop where
  controller : Fields.get? fields "controller_id" = some (.str controllerId)
  controller_ne : controllerId ≠ ""
  command : Fields.get? fields "command" = some (.str kind.text)
  key : Fields.get? fields "idempotency_key" = some (.str idempotencyKey)
  key_ne : idempotencyKey ≠ ""
  prompt : Fields.get? fields "prompt_key" = promptKey.map .str ∨
    Fields.get? fields "prompt_key" = some .null ∧ promptKey = none

/-- The expiry is a text, which reads as this time, with an offset. -/
def ExpiryReads (cfg : Config) (fields : Fields) (w : Wall) : Prop :=
  ∃ text, Fields.get? fields "expires_at" = some (.str text) ∧
    cfg.fromisoformat (replaceZ text) = some w ∧ w.offset ≠ none

/-- The payload is an object whose fields denote the command. -/
def Denotes (cfg : Config) (payload : Json) (command : Command) : Prop :=
  ∃ fields, payload = .obj fields ∧
    Stated fields command.controllerId command.kind command.idempotencyKey command.promptKey ∧
    ∃ w utc, ExpiryReads cfg fields w ∧ w.instant = some utc ∧ command.expiresAt = ⟨utc, some 0⟩

/-- The payload names a controller, and its command is a list or an object. -/
def Unhashable (payload : Json) : Prop :=
  ∃ fields controllerId, payload = .obj fields ∧
    Fields.get? fields "controller_id" = some (.str controllerId) ∧ controllerId ≠ "" ∧
    ((∃ items, Fields.get? fields "command" = some (.arr items)) ∨
      ∃ inner, Fields.get? fields "command" = some (.obj inner))

/-- The payload states a command, and its expiry reads as a time that is outside the
calendar in UTC. -/
def OffCalendar (cfg : Config) (payload : Json) : Prop :=
  ∃ fields controllerId kind idempotencyKey promptKey w, payload = .obj fields ∧
    Stated fields controllerId kind idempotencyKey promptKey ∧
    ExpiryReads cfg fields w ∧ w.instant = none

variable {cfg : Config} {payload : Json} {fields : Fields}

/-! ## Field by field -/

theorem requiredText_eq_some_iff {value : Option Json} {text : String} :
    requiredText value = some text ↔ value = some (.str text) ∧ text ≠ "" := by
  constructor
  · intro h
    match value with
    | some (.str found) =>
        rw [requiredText] at h
        split at h
        next => cases h
        next hne =>
          cases h
          exact ⟨rfl, hne⟩
    | none | some .null | some (.bool _) | some (.num _) | some (.arr _) | some (.obj _) => cases h
  · rintro ⟨rfl, hne⟩
    rw [requiredText, if_neg hne]

theorem optionalText_eq_some_iff {value : Option Json} {text : Option String} :
    optionalText value = some text ↔
      value = text.map .str ∨ value = some .null ∧ text = none := by
  constructor
  · intro h
    match value with
    | none => cases h; exact .inl rfl
    | some .null => cases h; exact .inr ⟨rfl, rfl⟩
    | some (.str found) => cases h; exact .inl rfl
    | some (.bool _) | some (.num _) | some (.arr _) | some (.obj _) => cases h
  · rintro (rfl | ⟨rfl, rfl⟩)
    · cases text with
      | none => rfl
      | some found => rfl
    · rfl

theorem parseKind_text (kind : Kind) : parseKind (some (.str kind.text)) = .ok (some kind) := by
  cases kind with
  | openGate => rfl
  | playPrompt => rfl

/-- A kind is only read from its text. -/
theorem parseKind_eq_some {value : Option Json} {kind : Kind}
    (h : parseKind value = .ok (some kind)) : value = some (.str kind.text) := by
  unfold parseKind at h
  split at h
  next => cases h; rfl
  next => cases h; rfl
  next => cases h
  next => cases h
  next => cases h

/-- Only a list or an object cannot be looked up. -/
theorem parseKind_error_iff {value : Option Json} :
    (∃ x, parseKind value = .error x) ↔
      (∃ items, value = some (.arr items)) ∨ ∃ inner, value = some (.obj inner) := by
  constructor
  · rintro ⟨x, h⟩
    unfold parseKind at h
    split at h
    next => cases h
    next => cases h
    next items => exact .inl ⟨items, rfl⟩
    next inner => exact .inr ⟨inner, rfl⟩
    next => cases h
  · rintro (⟨items, rfl⟩ | ⟨inner, rfl⟩)
    · exact ⟨_, rfl⟩
    · exact ⟨_, rfl⟩

/-- What becomes of the expiry. -/
theorem parseExpiry_cases (cfg : Config) (fields : Fields) :
    (∃ w utc, ExpiryReads cfg fields w ∧ w.instant = some utc ∧
      parseExpiry cfg (Fields.get? fields "expires_at") = .ok (some ⟨utc, some 0⟩)) ∨
    (∃ w x, ExpiryReads cfg fields w ∧ w.instant = none ∧
      parseExpiry cfg (Fields.get? fields "expires_at") = .error x) ∨
    (¬ ∃ w, ExpiryReads cfg fields w) ∧
      parseExpiry cfg (Fields.get? fields "expires_at") = .ok none := by
  cases hvalue : Fields.get? fields "expires_at" with
  | none => exact .inr (.inr ⟨fun ⟨_, _, h, _⟩ => by simp [hvalue] at h, rfl⟩)
  | some value =>
      match value with
      | .str text =>
          cases hread : cfg.fromisoformat (replaceZ text) with
          | none =>
              refine .inr (.inr ⟨?_, by rw [parseExpiry, hread]⟩)
              rintro ⟨w, text', h, hw, -⟩
              cases hvalue.symm.trans h
              cases hread.symm.trans hw
          | some w =>
              by_cases hoffset : w.offset = none
              · refine .inr (.inr ⟨?_, by simp [parseExpiry, hread, hoffset]⟩)
                rintro ⟨w', text', h, hw, hne⟩
                cases hvalue.symm.trans h
                cases hread.symm.trans hw
                exact hne hoffset
              · have hreads : ExpiryReads cfg fields w := ⟨text, hvalue, hread, hoffset⟩
                have hzone : w.offset.isNone = false := by
                  cases h : w.offset with
                  | none => exact absurd h hoffset
                  | some offset => rfl
                cases hutc : w.instant with
                | some utc =>
                    exact .inl ⟨w, utc, hreads, hutc, by simp [parseExpiry, hread, hzone, hutc]⟩
                | none =>
                    exact .inr (.inl ⟨w, _, hreads, hutc,
                      by simp only [parseExpiry, hread, hzone, hutc]; rfl⟩)
      | .null | .bool _ | .num _ | .arr _ | .obj _ =>
          exact .inr (.inr ⟨fun ⟨_, _, h, _⟩ => by simp [hvalue] at h, rfl⟩)

/-- An expiry reads as one time at most. -/
theorem ExpiryReads.unique {w w' : Wall} (h : ExpiryReads cfg fields w)
    (h' : ExpiryReads cfg fields w') : w = w' := by
  obtain ⟨text, hget, hread, -⟩ := h
  obtain ⟨text', hget', hread', -⟩ := h'
  cases hget.symm.trans hget'
  cases hread.symm.trans hread'
  rfl

/-! ## The whole payload -/

/-- Fields that state a command leave the expiry to decide. -/
theorem parse_stated {controllerId idempotencyKey : String} {kind : Kind}
    {promptKey : Option String}
    (h : Stated fields controllerId kind idempotencyKey promptKey) :
    parse cfg (.obj fields) = (parseExpiry cfg (Fields.get? fields "expires_at")).map
      fun expiresAt => expiresAt.map fun expiresAt =>
        { controllerId, kind, idempotencyKey, expiresAt, promptKey } := by
  rw [parse, requiredText_eq_some_iff.2 ⟨h.controller, h.controller_ne⟩]
  simp only [h.command, parseKind_text, requiredText_eq_some_iff.2 ⟨h.key, h.key_ne⟩,
    optionalText_eq_some_iff.2 h.prompt, bind, Except.bind, pure, Except.pure]
  cases parseExpiry cfg (Fields.get? fields "expires_at") with
  | error x => rfl
  | ok expiresAt => rfl

/-- Fields that do not state a command are refused, unless the command cannot be looked
up. -/
theorem parse_unstated
    (h : ¬ ∃ controllerId kind idempotencyKey promptKey,
      Stated fields controllerId kind idempotencyKey promptKey)
    (hhash : ¬ Unhashable (.obj fields)) : parse cfg (.obj fields) = .ok none := by
  cases hcontroller : requiredText (Fields.get? fields "controller_id") with
  | none => simp only [parse, hcontroller]
  | some controllerId =>
      obtain ⟨hget, hne⟩ := requiredText_eq_some_iff.1 hcontroller
      simp only [parse, hcontroller, bind, Except.bind, pure, Except.pure]
      cases hkind : parseKind (Fields.get? fields "command") with
      | error x =>
          have hcontainer := parseKind_error_iff.1 ⟨x, hkind⟩
          exact absurd ⟨fields, controllerId, rfl, hget, hne, hcontainer⟩ hhash
      | ok found =>
          cases found with
          | none => rfl
          | some kind =>
              cases hkey : requiredText (Fields.get? fields "idempotency_key") with
              | none => rfl
              | some key =>
                  cases hprompt : optionalText (Fields.get? fields "prompt_key") with
                  | none => rfl
                  | some promptKey =>
                      obtain ⟨hkeyget, hkeyne⟩ := requiredText_eq_some_iff.1 hkey
                      exact absurd ⟨controllerId, kind, key, promptKey, hget, hne,
                        parseKind_eq_some hkind, hkeyget, hkeyne,
                        optionalText_eq_some_iff.1 hprompt⟩ h

/-- A command that cannot be looked up raises. -/
theorem parse_unhashable (h : Unhashable payload) : ∃ x, parse cfg payload = .error x := by
  obtain ⟨fields, controllerId, rfl, hget, hne, hcontainer⟩ := h
  obtain ⟨x, hkind⟩ := parseKind_error_iff.2 hcontainer
  refine ⟨x, ?_⟩
  rw [parse, requiredText_eq_some_iff.2 ⟨hget, hne⟩]
  simp only [hkind, bind, Except.bind]

/-- An expiry outside the calendar raises. -/
theorem parse_offCalendar (h : OffCalendar cfg payload) : ∃ x, parse cfg payload = .error x := by
  obtain ⟨fields, controllerId, kind, idempotencyKey, promptKey, w, rfl, hstated, hreads, hoff⟩ := h
  rw [parse_stated hstated]
  obtain ⟨w', utc, hreads', hin, -⟩ | ⟨w', x, -, -, hexpiry⟩ | ⟨hnone, -⟩ :=
    parseExpiry_cases cfg fields
  · cases hreads.unique hreads'
    cases hoff.symm.trans hin
  · exact ⟨x, by rw [hexpiry]; rfl⟩
  · exact absurd ⟨w, hreads⟩ hnone

/-- What a payload denotes, it is read as. -/
theorem Denotes.parse {command : Command} (h : Denotes cfg payload command) :
    parse cfg payload = .ok (some command) := by
  obtain ⟨fields, rfl, hstated, w, utc, hreads, hin, hexpires⟩ := h
  rw [parse_stated hstated]
  obtain ⟨w', utc', hreads', hin', hexpiry⟩ | ⟨w', x, hreads', hoff, -⟩ | ⟨hnone, -⟩ :=
    parseExpiry_cases cfg fields
  · cases hreads.unique hreads'
    cases hin.symm.trans hin'
    rw [hexpiry]
    exact congrArg (fun expiresAt => Except.ok (some { command with expiresAt })) hexpires.symm
  · cases hreads.unique hreads'
    cases hin.symm.trans hoff
  · exact absurd ⟨w, hreads⟩ hnone

/-- A payload of neither kind is read as what it denotes, or refused. -/
theorem parse_cases (hhash : ¬ Unhashable payload) (hcalendar : ¬ OffCalendar cfg payload) :
    (∃ command, Denotes cfg payload command ∧ parse cfg payload = .ok (some command)) ∨
      (¬ ∃ command, Denotes cfg payload command) ∧ parse cfg payload = .ok none := by
  match payload with
  | .null | .bool _ | .num _ | .str _ | .arr _ =>
      refine .inr ⟨?_, rfl⟩
      rintro ⟨command, fields, h, -⟩
      cases h
  | .obj fields =>
      by_cases hstated : ∃ controllerId kind idempotencyKey promptKey,
        Stated fields controllerId kind idempotencyKey promptKey
      · obtain ⟨controllerId, kind, idempotencyKey, promptKey, hstated⟩ := hstated
        obtain ⟨w, utc, hreads, hin, hexpiry⟩ | ⟨w, x, hreads, hoff, -⟩ | ⟨hnone, hexpiry⟩ :=
          parseExpiry_cases cfg fields
        · refine .inl ⟨⟨controllerId, kind, idempotencyKey, ⟨utc, some 0⟩, promptKey⟩,
            ⟨fields, rfl, hstated, w, utc, hreads, hin, rfl⟩, ?_⟩
          rw [parse_stated hstated, hexpiry]
          rfl
        · exact absurd ⟨fields, _, _, _, _, w, rfl, hstated, hreads, hoff⟩ hcalendar
        · refine .inr ⟨?_, by rw [parse_stated hstated, hexpiry]; rfl⟩
          rintro ⟨command, fields', heq, -, w, utc, hreads, -⟩
          cases heq
          exact hnone ⟨w, hreads⟩
      · refine .inr ⟨?_, parse_unstated hstated hhash⟩
        rintro ⟨command, fields', heq, hfound, -⟩
        cases heq
        exact hstated ⟨_, _, _, _, hfound⟩

/-- Nothing raises out of the parsing of the payload: it is read as the command that it
denotes, and a payload that denotes none, or a command to another controller, is
answered without any operation. -/
structure Validated (cfg : Config) (payload : Json) : Prop where
  total : ∃ r, parse cfg payload = .ok r
  accepted : ∀ command, parse cfg payload = .ok (some command) ↔ Denotes cfg payload command
  refused : (¬ ∃ command, Denotes cfg payload command) → ∀ owner now,
    execute owner cfg payload now = .ret ⟨"failed", some "invalid_command"⟩
  foreign : ∀ command, Denotes cfg payload command → command.controllerId ≠ cfg.controllerId →
    ∀ owner now, execute owner cfg payload now = .ret ⟨"failed", some "wrong_controller"⟩

/-- A payload is validated unless its command cannot be looked up in a set, or it states
a command that expires outside the calendar. -/
theorem validated_iff (cfg : Config) (payload : Json) :
    Validated cfg payload ↔ ¬ Unhashable payload ∧ ¬ OffCalendar cfg payload := by
  constructor
  · intro h
    obtain ⟨r, hr⟩ := h.total
    constructor
    · intro hhash
      obtain ⟨x, hx⟩ := parse_unhashable hhash
      cases hr.symm.trans hx
    · intro hcalendar
      obtain ⟨x, hx⟩ := parse_offCalendar hcalendar
      cases hr.symm.trans hx
  · rintro ⟨hhash, hcalendar⟩
    have hcases := parse_cases hhash hcalendar
    constructor
    · obtain ⟨command, -, h⟩ | ⟨-, h⟩ := hcases
      · exact ⟨_, h⟩
      · exact ⟨_, h⟩
    · intro command
      refine ⟨fun hparse => ?_, Denotes.parse⟩
      obtain ⟨command', hdenotes, h⟩ | ⟨-, h⟩ := hcases
      · cases h.symm.trans hparse
        exact hdenotes
      · cases h.symm.trans hparse
    · intro hnone owner now
      obtain ⟨command', hdenotes, -⟩ | ⟨-, h⟩ := hcases
      · exact absurd ⟨command', hdenotes⟩ hnone
      · rw [execute, h]
        rfl
    · intro command hdenotes hforeign owner now
      rw [execute, hdenotes.parse]
      change (if command.controllerId ≠ cfg.controllerId then _ else _) = _
      rw [if_pos hforeign]
      rfl

/-- A list in the place of the command raises out of the parsing. -/
theorem command_list_raises :
    ¬ Validated {} (.obj [("controller_id", .str "gate"), ("command", .arr [])]) := by
  intro h
  obtain ⟨r, hr⟩ := h.total
  cases hr

end DirectCommandExecutor

end GateController
