import GateController.Media.Grammar
import GateController.Media.Staged
import Mathlib.Data.List.Nodup

/-!
# Environment files, written and read

Two functions write an environment file and one reads it.  Each assignment is written as a line
that ends with a line feed.  The reader breaks the text wherever `splitlines` breaks it, and a
value may hold any character that is not white space, the separator among them.  Both agree
since a line is broken at white space only, and cut at its first separator only.

The reader takes no file that is empty or longer than its bound.  What is written can be both:
a mapping may be empty, and values may be long.
-/

namespace GateController

open Data

namespace MediaConfig

open TurnRefresh (assignment)

/-- `_serialize_environment`, without a value where a key of the order is not in the mapping. -/
def serializeEnvironment (values : Values) (order : List String) : Option (List UInt8) := do
  let lines ← order.mapM fun key => do
    let value ← values.lookup key
    return assignment key value
  return Utf8.encode (String.ofList lines.flatten)

/-- A mapping of keys to values that can stand on a line. -/
structure Writable (values : Values) : Prop where
  once : (values.map Prod.fst).Nodup
  key : ∀ pair ∈ values, matchesKey pair.1.toList = true
  solid : ∀ pair ∈ values, ∀ c ∈ pair.2.toList, Text.isSpace c = false
  value : ∀ pair ∈ values, pair.2 ≠ ""

/-- The check of one assignment. -/
def isWritable (pair : String × String) : Bool :=
  matchesKey pair.1.toList && pair.2.toList.all (fun c => !Text.isSpace c) && pair.2 != ""

theorem Writable.of_check {values : Values} (hnodup : (values.map Prod.fst).Nodup)
    (h : values.all isWritable = true) : Writable values where
  once := hnodup
  key pair hmem := by
    have hpair := List.all_eq_true.1 h pair hmem
    simp only [isWritable, Bool.and_eq_true] at hpair
    exact hpair.1.1
  solid pair hmem := by
    have hpair := List.all_eq_true.1 h pair hmem
    simp only [isWritable, Bool.and_eq_true] at hpair
    exact TurnRefresh.solid_of_all hpair.1.2
  value pair hmem := by
    have hpair := List.all_eq_true.1 h pair hmem
    simp only [isWritable, Bool.and_eq_true] at hpair
    exact bne_iff_ne.1 hpair.2

/-- The text of a file that makes these assignments, in this order. -/
def writtenText (values : Values) : List Char := values.flatMap fun pair => assignment pair.1 pair.2

/-- What a trusted file with this body is parsed to. -/
def parseBody (body : List UInt8) : Except String Values := parseTrustedEnvironment (some { body })

/-! ## Reading what is written -/

section Written

variable {values : Values} {pair : String × String}

/-- A key has no white space. -/
theorem not_isSpace_of_matchesKey {key : List Char} (h : matchesKey key = true) :
    ∀ c ∈ key, Text.isSpace c = false := by
  have hchar : ∀ c : Char, (c.isUpper || c.isDigit || c == '_') = true →
      Text.isSpace c = false := by
    intro c hc
    simp only [Bool.or_eq_true, beq_iff_eq] at hc
    rcases hc with (hupper | hdigit) | rfl
    · have halpha : c.isAlpha = true := Bool.or_eq_true_iff.2 (.inl hupper)
      exact Text.not_isSpace_of_isAlphanum (Bool.or_eq_true_iff.2 (.inl halpha))
    · exact Text.not_isSpace_of_isAlphanum (Bool.or_eq_true_iff.2 (.inr hdigit))
    · rfl
  cases key with
  | nil => cases h
  | cons first rest =>
      rw [matchesKey, Bool.and_eq_true] at h
      intro c hc
      rcases List.mem_cons.1 hc with rfl | hc
      · exact hchar c (by simp [h.1])
      · exact hchar c (List.all_eq_true.1 h.2 c hc)

/-- The line of an assignment, without its end. -/
def spelled (pair : String × String) : List Char := pair.1.toList ++ '=' :: pair.2.toList

theorem assignment_eq (pair : String × String) :
    assignment pair.1 pair.2 = spelled pair ++ ['\n'] := by
  simp [assignment, spelled]

theorem Writable.not_isSpace (h : Writable values) (hmem : pair ∈ values) :
    ∀ c ∈ spelled pair, Text.isSpace c = false := by
  intro c hc
  rcases List.mem_append.1 hc with hkey | hc
  · exact not_isSpace_of_matchesKey (h.key pair hmem) c hkey
  · rcases List.mem_cons.1 hc with rfl | hvalue
    · rfl
    · exact h.solid pair hmem c hvalue

theorem Writable.isAssignment (h : Writable values) (hmem : pair ∈ values) :
    IsAssignment (spelled pair) pair where
  spelled := rfl
  key := h.key pair hmem
  value hnil := h.value pair hmem (String.toList_eq_nil_iff.1 hnil)

theorem Writable.tail (h : Writable (pair :: values)) : Writable values where
  once := (List.nodup_cons.1 h.once).2
  key other hmem := h.key other (List.mem_cons_of_mem pair hmem)
  solid other hmem := h.solid other (List.mem_cons_of_mem pair hmem)
  value other hmem := h.value other (List.mem_cons_of_mem pair hmem)

/-- The values that can be written are effective. -/
theorem Writable.effective (h : Writable values) : validateEffectiveValues values = .ok () := by
  refine if_pos (List.all_eq_true.2 fun pair hmem => ?_)
  have hkey : pair.1.toList.any Text.isSpace = false := by
    rw [List.any_eq_false]
    exact fun c hc => by simp [not_isSpace_of_matchesKey (h.key pair hmem) c hc]
  have hvalue : pair.2.toList.any Text.isSpace = false := by
    rw [List.any_eq_false]
    exact fun c hc => by simp [h.solid pair hmem c hc]
  rw [hkey, hvalue, bne_iff_ne.2 (h.value pair hmem)]
  rfl

/-- Every assignment is a line. -/
theorem splitLines_writtenText (h : Writable values) :
    (Lines.splitLines (writtenText values)).map Prod.fst = values.map spelled := by
  induction values with
  | nil => rfl
  | cons pair rest ih =>
      have hline := Lines.not_isBreak (h.not_isSpace List.mem_cons_self)
      have htext : writtenText (pair :: rest) = spelled pair ++ '\n' :: writtenText rest := by
        simp [writtenText, assignment_eq]
      rw [htext, Lines.splitLines_append hline, List.map_cons, List.map_cons, ih h.tail]

/-- Every line is parsed to its assignment. -/
theorem forall₂_parseLine (h : Writable values) :
    List.Forall₂ (fun line pair => parseLine line = .ok pair) (values.map spelled) values := by
  induction values with
  | nil => exact .nil
  | cons pair rest ih =>
      refine .cons (parseLine_ok_iff.2 ⟨?_, ?_⟩) (ih h.tail)
      · exact h.not_isSpace List.mem_cons_self
      · exact h.isAssignment List.mem_cons_self

theorem return_not_mem_writtenText (h : Writable values) : '\r' ∉ writtenText values := by
  intro hmem
  obtain ⟨pair, hpair, hmem⟩ := List.mem_flatMap.1 hmem
  rw [assignment_eq] at hmem
  rcases List.mem_append.1 hmem with hmem | hmem
  · cases h.not_isSpace hpair '\r' hmem
  · cases List.mem_singleton.1 hmem

/-- The text ends with the end of its last line. -/
theorem getLast?_writtenText (hne : values ≠ []) : (writtenText values).getLast? = some '\n' := by
  obtain ⟨front, last, rfl⟩ := (List.eq_nil_or_concat values).resolve_left hne
  simp [writtenText, assignment_eq]

/-- What is written is what is parsed. -/
theorem parseText_writtenText (h : Writable values) (hne : values ≠ []) :
    parseText (writtenText values) = .ok values := by
  have hreturn : (writtenText values).any (· == '\r') = false := by
    rw [List.any_eq_false]
    intro c hc heq
    exact return_not_mem_writtenText h (beq_iff_eq.1 heq ▸ hc)
  rw [parseText, hreturn, getLast?_writtenText hne, Bool.false_or, bne_self_eq_false,
    if_neg Bool.false_ne_true, splitLines_writtenText h]
  exact parseLines_ok_iff.2 ⟨values, rfl, forall₂_parseLine h, h.once, by simp⟩

/-- A body is parsed as a text, unless it is empty or too long. -/
theorem parseBody_encode {text : List Char} (hne : text ≠ []) :
    parseBody (Utf8.encode (String.ofList text)) =
      if maxConfigBytes < (Utf8.encode (String.ofList text)).length
      then .error "trusted file must be owner-only and bounded" else parseText text := by
  have hbody : Utf8.encode (String.ofList text) ≠ [] := by
    rw [← List.length_pos_iff] at hne ⊢
    exact Nat.lt_of_lt_of_le hne (Utf8.length_le_encode text)
  rw [parseBody, parseTrustedEnvironment]
  by_cases hlong : maxConfigBytes < (Utf8.encode (String.ofList text)).length
  · simp [hlong]
  · simp [hlong, hbody]

/-- A file that is written is parsed, unless it is empty or too long. -/
theorem parseBody_written (h : Writable values) :
    parseBody (Utf8.encode (String.ofList (writtenText values))) =
      if values = [] ∨ maxConfigBytes < (Utf8.encode (String.ofList (writtenText values))).length
      then .error "trusted file must be owner-only and bounded" else .ok values := by
  by_cases hne : values = []
  · subst hne
    rfl
  · have htext : writtenText values ≠ [] := by
      intro hnil
      have hlast := getLast?_writtenText hne
      rw [hnil] at hlast
      cases hlast
    rw [parseBody_encode htext, parseText_writtenText h hne]
    simp only [hne, false_or]

/-- A file that is written and fits is parsed. -/
theorem parseBody_fits (h : Writable values) (hne : values ≠ [])
    (hfits : ((writtenText values).flatMap String.utf8EncodeChar).length ≤ maxConfigBytes) :
    parseBody (Utf8.encode (String.ofList (writtenText values))) = .ok values := by
  rw [parseBody_written h, Utf8.encode_ofList, if_neg]
  rintro (hnil | hlong)
  · exact hne hnil
  · exact absurd hlong (Nat.not_lt.2 hfits)

/-- The length of a file does not depend on the order of its lines. -/
theorem length_written_perm {values' : Values} (h : values.Perm values') :
    (Utf8.encode (String.ofList (writtenText values))).length =
      (Utf8.encode (String.ofList (writtenText values'))).length := by
  rw [Utf8.encode_ofList, Utf8.encode_ofList]
  exact ((h.flatMap_right _).flatMap_right _).length_eq

/-- A file with a value that is as long as a file may be is too long. -/
theorem long_refused (h : Writable values) (hmem : pair ∈ values)
    (hlong : maxConfigBytes ≤ pair.2.length) :
    parseBody (Utf8.encode (String.ofList (writtenText values))) =
      .error "trusted file must be owner-only and bounded" := by
  have hline : pair.2.length < (writtenText values).length := by
    obtain ⟨before, after, rfl⟩ := List.append_of_mem hmem
    simp only [writtenText, List.flatMap_append, List.flatMap_cons, List.length_append, assignment,
      List.length_cons, String.length_toList]
    omega
  have hbytes := Utf8.length_le_encode (writtenText values)
  rw [parseBody_written h, if_pos]
  exact .inr (by omega)

end Written

/-! ## `_serialize_environment` -/

section Serialize

variable {values : Values} {order : List String} {pair : String × String}

/-- A mapping has the value of a key that stands in it once. -/
theorem lookup_of_mem_values (hnodup : (values.map Prod.fst).Nodup) (hmem : pair ∈ values) :
    values.lookup pair.1 = some pair.2 := by
  cases hlookup : values.lookup pair.1 with
  | none =>
      have hne := List.lookup_eq_none_iff.1 hlookup pair hmem
      simp at hne
  | some value =>
      obtain ⟨before, after, hsplit, -⟩ := List.lookup_eq_some_iff.1 hlookup
      have hfound : (pair.1, value) ∈ values := by simp [hsplit]
      rw [← List.inj_on_of_nodup_map hnodup hfound hmem rfl]

/-- The mapping, in the order of its keys. -/
theorem select_names (hnodup : (values.map Prod.fst).Nodup) :
    select values (values.map Prod.fst) = values := by
  have hvalue : ∀ pair ∈ values, (pair.1, get values pair.1) = pair := by
    intro pair hmem
    rw [get, lookup_of_mem_values hnodup hmem, Option.getD_some]
  have hsame := List.map_congr_left hvalue
  rw [select, List.map_map]
  exact hsame.trans (List.map_id values)

theorem select_perm (hnodup : (values.map Prod.fst).Nodup)
    (horder : order.Perm (values.map Prod.fst)) : (select values order).Perm values := by
  have hperm := horder.map fun key => (key, get values key)
  have hnames := select_names hnodup
  rw [select] at hnames ⊢
  rwa [hnames] at hperm

/-- An order of other keys is a mapping as good as the first. -/
theorem Writable.perm {values' : Values} (h : Writable values) (hperm : values'.Perm values) :
    Writable values' where
  once := (hperm.map Prod.fst).nodup_iff.2 h.once
  key pair hmem := h.key pair (hperm.mem_iff.1 hmem)
  solid pair hmem := h.solid pair (hperm.mem_iff.1 hmem)
  value pair hmem := h.value pair (hperm.mem_iff.1 hmem)

/-- The lines of keys that are all there. -/
theorem mapM_lookup (h : ∀ key ∈ order, key ∈ values.map Prod.fst) :
    (order.mapM fun key => do
      let value ← values.lookup key
      return assignment key value) =
      some (order.map fun key => assignment key (get values key)) := by
  induction order with
  | nil => rfl
  | cons key rest ih =>
      obtain ⟨pair, hmem, hpair⟩ := List.mem_map.1 (h key List.mem_cons_self)
      have hkey := List.lookup_isSome_iff.2 ⟨pair, hmem, beq_iff_eq.2 hpair.symm⟩
      obtain ⟨value, hvalue⟩ := Option.isSome_iff_exists.1 hkey
      rw [List.mapM_cons, ih fun k hk => h k (List.mem_cons_of_mem key hk), List.map_cons, get,
        hvalue]
      rfl

/-- The text has the values in the order that is asked for. -/
theorem serializeEnvironment_eq (h : ∀ key ∈ order, key ∈ values.map Prod.fst) :
    serializeEnvironment values order =
      some (Utf8.encode (String.ofList (writtenText (select values order)))) := by
  have hlines : (order.map fun key => assignment key (get values key)).flatten =
      writtenText (select values order) := by
    rw [writtenText, select, List.flatMap_map, List.flatMap_def]
  rw [serializeEnvironment, mapM_lookup h, ← hlines]
  rfl

end Serialize

/-! ## `_replace_turn_values` -/

section Replace

open TurnRefresh

variable {file : File} {values : Values} {c : Candidate}

/-- The new values, under the keys of the relay. -/
def relayValues (c : Candidate) : Values :=
  [("MTX_WEBRTCICESERVERS2_0_URL", c.url), ("MTX_WEBRTCICESERVERS2_0_USERNAME", c.username),
    ("MTX_WEBRTCICESERVERS2_0_PASSWORD", c.credential)]

/-- A relay without an empty value. -/
def HasValues (c : Candidate) : Prop := c.url ≠ "" ∧ c.username ≠ "" ∧ c.credential ≠ ""

theorem relayValues_eq (c : Candidate) :
    relayValues c = runtimeTurnKeyOrder.map fun key => (key, turnValue c key) := by
  simp [relayValues, runtimeTurnKeyOrder, turnValue]

theorem credential_mem (c : Candidate) :
    ("MTX_WEBRTCICESERVERS2_0_PASSWORD", c.credential) ∈ relayValues c :=
  List.mem_cons_of_mem _ (List.mem_cons_of_mem _ List.mem_cons_self)

theorem relayValues_writable (hc : c.Sound) (hvalues : HasValues c) : Writable (relayValues c) where
  once := by
    have hnodup : runtimeTurnKeyOrder.Nodup := by decide
    exact hnodup
  key pair hmem := by
    have hall : ∀ key ∈ runtimeTurnKeyOrder, matchesKey key.toList = true := by decide
    rw [relayValues_eq] at hmem
    obtain ⟨key, hkey, rfl⟩ := List.mem_map.1 hmem
    exact hall key hkey
  solid pair hmem := by
    rw [relayValues_eq] at hmem
    obtain ⟨key, -, rfl⟩ := List.mem_map.1 hmem
    exact hc.value key
  value pair hmem := by
    obtain ⟨hurl, husername, hcredential⟩ := hvalues
    simp only [relayValues, List.mem_cons, List.not_mem_nil, or_false] at hmem
    rcases hmem with rfl | rfl | rfl
    · exact hurl
    · exact husername
    · exact hcredential

/-- A file with exactly the keys of the relay has each of them once. -/
theorem runtimeKeys_perm (hnodup : (values.map Prod.fst).Nodup)
    (hkeys : hasKeys values runtimeTurnKeyOrder = true) :
    (values.map Prod.fst).Perm runtimeTurnKeyOrder := by
  obtain ⟨hsub, hsup⟩ := of_decide_eq_true hkeys
  exact (List.perm_ext_iff_of_nodup hnodup (by decide)).2 fun key =>
    ⟨fun h => hsub h, fun h => hsup h⟩

/-- The new file is the old one with the new values, each on a line of its own. -/
theorem replaceTurnValues_of_keys (hparse : parseTrustedEnvironment (some file) = .ok values)
    (hkeys : hasKeys values runtimeTurnKeyOrder = true) :
    ∃ parsed : Values, parsed.Perm (relayValues c) ∧
      replaceTurnValues file.body c = .ok (Utf8.encode (String.ofList (writtenText parsed))) := by
  obtain ⟨text, htext, hnodup, hlines⟩ := parseTrustedEnvironment_ok hparse
  have hperm := runtimeKeys_perm hnodup hkeys
  obtain ⟨hsub, hsup⟩ := of_decide_eq_true hkeys
  refine ⟨(values.map Prod.fst).map fun key => (key, turnValue c key), ?_, ?_⟩
  · rw [relayValues_eq]
    exact hperm.map _
  · have hreplaced : (values.map fun pair =>
        (assignment pair.1 (turnValue c pair.1), some pair.1)).filterMap Prod.snd =
          values.map Prod.fst := by
      rw [List.filterMap_map]
      exact congrFun (List.filterMap_eq_map (f := Prod.fst)) values
    rw [replaceTurnValues, htext]
    dsimp only
    rw [map_replaceLine hlines hsub, hreplaced, if_pos ⟨hsub, hsup⟩, writtenText,
      List.flatMap_map, List.flatMap_map, List.flatMap_map]

end Replace

/-! ## Round trips -/

open TurnRefresh in
/-- What `_serialize_environment` writes of a mapping is parsed to the mapping, in whatever order
its keys are listed.  What `_replace_turn_values` makes of a file with exactly the keys of the
relay is parsed to the new values.  Only a file that is empty or too long is refused, and a file
with the keys of the relay is never empty. -/
theorem environments_round_trip :
    (∀ (values : Values) (order : List String), Writable values →
      order.Perm (values.map Prod.fst) →
      ∃ body parsed, serializeEnvironment values order = some body ∧ parsed.Perm values ∧
        parseBody body = if values = [] ∨ maxConfigBytes < body.length
          then .error "trusted file must be owner-only and bounded" else .ok parsed) ∧
    ∀ (file : File) (values : Values) (c : Candidate),
      parseTrustedEnvironment (some file) = .ok values →
      hasKeys values runtimeTurnKeyOrder = true → c.Sound → HasValues c →
      ∃ body parsed, replaceTurnValues file.body c = .ok body ∧ parsed.Perm (relayValues c) ∧
        parseBody body = if maxConfigBytes < body.length
          then .error "trusted file must be owner-only and bounded" else .ok parsed := by
  constructor
  · intro values order hwritable horder
    have hperm := select_perm hwritable.once horder
    have hbody := serializeEnvironment_eq fun key hkey => horder.mem_iff.1 hkey
    have hempty : select values order = [] ↔ values = [] := by
      rw [← List.length_eq_zero_iff, hperm.length_eq, List.length_eq_zero_iff]
    have hparse := parseBody_written (hwritable.perm hperm)
    simp only [hempty] at hparse
    exact ⟨_, select values order, hbody, hperm, hparse⟩
  · intro file values c hold hkeys hsound hvalues
    obtain ⟨parsed, hperm, hbody⟩ := replaceTurnValues_of_keys hold hkeys
    have hne : parsed ≠ [] := fun hnil => List.cons_ne_nil _ _ (hnil ▸ hperm).nil_eq.symm
    have hparse := parseBody_written ((relayValues_writable hsound hvalues).perm hperm)
    simp only [hne, false_or] at hparse
    exact ⟨_, parsed, hbody, hperm, hparse⟩

/-- A file with the keys of the relay in another order, that breaks at a vertical tab. -/
def shuffled : List Char :=
  "MTX_WEBRTCICESERVERS2_0_PASSWORD=p\x0bMTX_WEBRTCICESERVERS2_0_URL=u\n".toList ++
    "MTX_WEBRTCICESERVERS2_0_USERNAME=n\n".toList

/-- A relay whose user has the separator in its name. -/
def newRelay : TurnRefresh.Candidate where
  preference := 0
  url := "turn:a:1"
  username := "n=1"
  credential := "é"

theorem newRelay_sound : newRelay.Sound where
  url := TurnRefresh.solid_of_all (l := "turn:a:1".toList) (by decide)
  username := TurnRefresh.solid_of_all (l := "n=1".toList) (by decide)
  credential := TurnRefresh.solid_of_all (l := "é".toList) (by decide)

theorem parse_shuffled : parseBody (Utf8.encode (String.ofList shuffled)) =
    .ok [("MTX_WEBRTCICESERVERS2_0_PASSWORD", "p"), ("MTX_WEBRTCICESERVERS2_0_URL", "u"),
      ("MTX_WEBRTCICESERVERS2_0_USERNAME", "n")] := by
  delta shuffled
  rw [String.toList_ofList, String.toList_ofList, parseBody_encode (by decide), if_neg]
  · rfl
  · rw [Utf8.encode_ofList]
    decide +kernel

theorem environments_round_trip_shuffled :
    (∃ body parsed, serializeEnvironment [("B", "1=2"), ("A", "é")] ["A", "B"] = some body ∧
      parsed.Perm [("B", "1=2"), ("A", "é")] ∧ parseBody body = .ok parsed) ∧
    ∃ body parsed,
      TurnRefresh.replaceTurnValues (Utf8.encode (String.ofList shuffled)) newRelay = .ok body ∧
      parsed.Perm (relayValues newRelay) ∧ parseBody body = .ok parsed := by
  constructor
  · have hwritable : Writable [("B", "1=2"), ("A", "é")] := .of_check (by decide) (by decide)
    obtain ⟨body, parsed, hbody, hperm, hparse⟩ :=
      environments_round_trip.1 _ ["A", "B"] hwritable (by decide)
    have hshort : ¬ maxConfigBytes < body.length := by
      rw [serializeEnvironment_eq (by decide)] at hbody
      obtain rfl := Option.some.inj hbody
      rw [Utf8.encode_ofList]
      decide +kernel
    rw [if_neg (by simp [hshort])] at hparse
    exact ⟨body, parsed, hbody, hperm, hparse⟩
  · obtain ⟨body, parsed, hbody, hperm, hparse⟩ :=
      environments_round_trip.2 _ _ newRelay parse_shuffled (by decide) newRelay_sound
        ⟨by decide, by decide, by decide⟩
    obtain ⟨written, hwritten, hnew⟩ := replaceTurnValues_of_keys parse_shuffled (by decide)
    have hshort : ¬ maxConfigBytes < body.length := by
      obtain rfl := Except.ok.inj (hnew.symm.trans hbody)
      rw [length_written_perm hwritten, Utf8.encode_ofList]
      decide +kernel
    rw [if_neg hshort] at hparse
    exact ⟨body, parsed, hbody, hperm, hparse⟩

/-- A value of as many characters as a file may have bytes. -/
def longValue : String := String.ofList (List.replicate maxConfigBytes 'x')

/-- A relay with this value. -/
def longRelay : TurnRefresh.Candidate := { newRelay with credential := longValue }

/-- What is written of the empty mapping is empty, and what is written of a long value is too
long, so neither is parsed. -/
theorem bounds_refused :
    (Writable [] ∧ serializeEnvironment [] [] = some [] ∧
      parseBody [] = .error "trusted file must be owner-only and bounded") ∧
    (Writable [("A", longValue)] ∧
      ∃ body, serializeEnvironment [("A", longValue)] ["A"] = some body ∧
        parseBody body = .error "trusted file must be owner-only and bounded") ∧
    ∃ old, parseBody (Utf8.encode (String.ofList shuffled)) = .ok old ∧
      hasKeys old runtimeTurnKeyOrder = true ∧ longRelay.Sound ∧ HasValues longRelay ∧
      ∃ body,
        TurnRefresh.replaceTurnValues (Utf8.encode (String.ofList shuffled)) longRelay = .ok body ∧
        parseBody body = .error "trusted file must be owner-only and bounded" := by
  have hlongChars : ∀ c ∈ longValue.toList, Text.isSpace c = false := by
    intro c hc
    rw [longValue, String.toList_ofList] at hc
    rw [List.eq_of_mem_replicate hc]
    rfl
  have hlength : maxConfigBytes ≤ longValue.length := by
    rw [longValue, String.length_ofList, List.length_replicate]
  have hnotEmpty : longValue ≠ "" := by
    rintro heq
    rw [heq] at hlength
    cases hlength
  have hsingle : Writable [("A", longValue)] := by
    refine ⟨by simp, ?_, ?_, ?_⟩
    · exact List.forall_mem_singleton.2 (by decide)
    · exact List.forall_mem_singleton.2 hlongChars
    · exact List.forall_mem_singleton.2 hnotEmpty
  have hsound : longRelay.Sound := ⟨newRelay_sound.url, newRelay_sound.username, hlongChars⟩
  have hvalues : HasValues longRelay := ⟨by decide, by decide, hnotEmpty⟩
  refine ⟨⟨⟨List.nodup_nil, by simp, by simp, by simp⟩, rfl, rfl⟩, ⟨hsingle, ?_⟩, ?_⟩
  · have horder : ∀ key ∈ ["A"], key ∈ [("A", longValue)].map Prod.fst := by simp
    have hperm : (select [("A", longValue)] ["A"]).Perm [("A", longValue)] :=
      select_perm hsingle.once (.refl _)
    have hmem : ("A", longValue) ∈ select [("A", longValue)] ["A"] :=
      hperm.mem_iff.2 List.mem_cons_self
    exact ⟨_, serializeEnvironment_eq horder, long_refused (hsingle.perm hperm) hmem hlength⟩
  · obtain ⟨parsed, hperm, hbody⟩ := replaceTurnValues_of_keys parse_shuffled (by decide)
    have hmem := hperm.mem_iff.2 (credential_mem longRelay)
    have hwritable := (relayValues_writable hsound hvalues).perm hperm
    exact ⟨_, parse_shuffled, by decide, hsound, hvalues, _, hbody,
      long_refused hwritable hmem hlength⟩

end MediaConfig

end GateController
