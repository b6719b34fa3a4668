import GateController.Media.Grammar
import GateController.Media.Refresh
import Mathlib.Data.List.TakeWhile

/-!
# What the new file says

The selected values have no white space, so each of them stays on its line.  A file that is
made of them says them and nothing else, in whatever order the old file had its lines.
-/

namespace GateController

open Data Effects MediaConfig

namespace TurnRefresh

variable {lib : Library} {c : Candidate}

/-- A text without white space. -/
def Solid (text : String) : Prop := ∀ d ∈ text.toList, Text.isSpace d = false

/-- The three values of a relay have no white space. -/
structure Candidate.Sound (c : Candidate) : Prop where
  url : Solid c.url
  username : Solid c.username
  credential : Solid c.credential

theorem Candidate.Sound.value (h : c.Sound) (key : String) : Solid (turnValue c key) := by
  unfold turnValue
  split
  next => exact h.url
  next =>
    split
    next => exact h.username
    next => exact h.credential

/-! ## The URL of a relay -/

theorem not_isSpace_of_hex {d : Char} (h : ('a' ≤ d && d ≤ 'f') = true ∨
    ('A' ≤ d && d ≤ 'F') = true) : Text.isSpace d = false := by
  have hd : d.val.toNat = d.toNat := rfl
  simp only [Bool.and_eq_true, decide_eq_true_eq, Char.le_def, UInt32.le_iff_toNat_le, hd] at h
  simp only [Text.isSpace, Bool.or_eq_false_iff, Bool.and_eq_false_iff, decide_eq_false_iff_not,
    beq_eq_false_iff_ne]
  simp at h
  omega

/-- A run and what comes after it. -/
theorem takeWhile_append_drop {α : Type} (p : α → Bool) (l : List α) :
    l.takeWhile p ++ l.drop (l.takeWhile p).length = l :=
  List.prefix_iff_eq_append.1 (List.takeWhile_prefix p)

/-- A port and what comes after it have no white space. -/
theorem solid_of_port {isDigit : Char → Bool}
    (hdigit : ∀ d, isDigit d = true → Text.isSpace d = false) {tail : List Char}
    (hrest : ∀ d ∈ tail.drop (tail.takeWhile isDigit).length, Text.isSpace d = false) :
    ∀ d ∈ ':' :: tail, Text.isSpace d = false := by
  intro d hd
  obtain rfl | hd := List.mem_cons.1 hd
  · rfl
  · rw [← takeWhile_append_drop isDigit tail] at hd
    obtain hd | hd := List.mem_append.1 hd
    · exact hdigit d (List.mem_takeWhile_imp hd)
    · exact hrest d hd

/-- Characters that are none of them white space. -/
theorem solid_of_all {l : List Char} (h : l.all (fun d => !Text.isSpace d) = true) :
    ∀ d ∈ l, Text.isSpace d = false := by
  intro d hd
  simpa using List.all_eq_true.1 h d hd

/-- The URL of a relay has no white space, if what comes after the port has none. -/
theorem solid_of_matchTurnUrl {isDigit : Char → Bool}
    (hdigit : ∀ d, isDigit d = true → Text.isSpace d = false)
    {url scheme host port rest : List Char}
    (h : matchTurnUrl isDigit url = some (scheme, host, port, rest))
    (hrest : ∀ d ∈ rest, Text.isSpace d = false) : ∀ d ∈ url, Text.isSpace d = false := by
  have hscheme : ∀ {l : List Char}, ¬ (l ≠ "turn".toList ∧ l ≠ "turns".toList) →
      ∀ d ∈ l, Text.isSpace d = false := by
    intro l hl
    rw [not_and_or, not_not, not_not] at hl
    obtain rfl | rfl := hl
    · exact solid_of_all (by decide)
    · exact solid_of_all (by decide)
  unfold matchTurnUrl at h
  dsimp only at h
  split at h
  next => cases h
  next hs =>
    rw [← List.takeWhile_append_dropWhile (p := (· != ':')) (l := url)]
    intro d hd
    obtain hd | hd := List.mem_append.1 hd
    · exact hscheme hs d hd
    · split at h
      next more hdrop =>
        rw [hdrop] at hd
        split at h
        next tail htail =>
          split at h
          next => cases h
          next =>
            cases h
            obtain rfl | hd := List.mem_cons.1 hd
            · rfl
            obtain rfl | hd := List.mem_cons.1 hd
            · rfl
            rw [← takeWhile_append_drop (fun c : Char => c.isDigit || ('a' ≤ c && c ≤ 'f') ||
              ('A' ≤ c && c ≤ 'F') || c == ':' || c == '.') more, htail] at hd
            obtain hd | hd := List.mem_append.1 hd
            · have hin := List.mem_takeWhile_imp hd
              simp only [Bool.or_eq_true, beq_iff_eq] at hin
              obtain (((hin | hin) | hin) | rfl) | rfl := hin
              · exact Text.not_isSpace_of_isAlphanum (by simp [Char.isAlphanum, hin])
              · exact not_isSpace_of_hex (.inl hin)
              · exact not_isSpace_of_hex (.inr hin)
              · rfl
              · rfl
            · obtain rfl | hd := List.mem_cons.1 hd
              · rfl
              · exact solid_of_port hdigit hrest d hd
        next => cases h
      next more _ hdrop =>
        rw [hdrop] at hd
        split at h
        next tail htail =>
          split at h
          next => cases h
          next =>
            cases h
            obtain rfl | hd := List.mem_cons.1 hd
            · rfl
            rw [← takeWhile_append_drop (fun c : Char => c.isAlphanum || c == '.' || c == '-') more,
              htail] at hd
            obtain hd | hd := List.mem_append.1 hd
            · have hin := List.mem_takeWhile_imp hd
              simp only [Bool.or_eq_true, beq_iff_eq] at hin
              obtain (hin | rfl) | rfl := hin
              · exact Text.not_isSpace_of_isAlphanum hin
              · rfl
              · rfl
            · exact solid_of_port hdigit hrest d hd
        next => cases h
      next => cases h

/-! ## The selection -/

theorem solid_of_parseTurnUrl {url : String} {parsed : String × Int × String}
    (h : parseTurnUrl lib url = .ok (some parsed)) : Solid url := by
  unfold parseTurnUrl at h
  split at h
  next => cases h
  next scheme host portText rest hmatch =>
    split at h
    next => cases h
    next hrest =>
      rw [not_and_or, not_not, not_not] at hrest
      refine solid_of_matchTurnUrl lib.isDecimal_not_space hmatch ?_
      obtain rfl | rfl := hrest
      · exact solid_of_all (by decide)
      · exact solid_of_all (by decide)

theorem solid_of_validCredentialValue {value : String} (h : validCredentialValue value = true) :
    Solid value := by
  rw [validCredentialValue, Bool.and_eq_true, Bool.not_eq_true', List.any_eq_false] at h
  intro d hd
  exact Bool.eq_false_iff.2 (h.2 d hd)

theorem urlCandidates_sound {username credential : String} (husername : Solid username)
    (hcredential : Solid credential) :
    ∀ {urls : List String} {found : List Candidate},
      urlCandidates lib username credential urls = .ok found → ∀ c ∈ found, c.Sound := by
  intro urls
  induction urls with
  | nil =>
      intro found h
      cases h
      intro c hc
      cases hc
  | cons url rest ih =>
      intro found h
      cases hparsed : parseTurnUrl lib url with
      | error x => simp [urlCandidates, hparsed, bind, Except.bind] at h
      | ok parsed =>
          cases hmore : urlCandidates lib username credential rest with
          | error x => simp [urlCandidates, hparsed, hmore, bind, Except.bind] at h
          | ok more =>
              simp only [urlCandidates, hparsed, hmore, bind, Except.bind, pure, Except.pure,
                Except.ok.injEq] at h
              cases parsed with
              | none => exact h ▸ ih hmore
              | some parsed =>
                  subst h
                  intro c hc
                  obtain rfl | hc := List.mem_cons.1 hc
                  · exact ⟨solid_of_parseTurnUrl hparsed, husername, hcredential⟩
                  · exact ih hmore c hc

theorem serverCandidates_sound {server : Json} {found : List Candidate}
    (h : serverCandidates lib server = .ok found) : ∀ c ∈ found, c.Sound := by
  unfold serverCandidates at h
  split at h
  next fields =>
    split at h
    next item items _ =>
      split at h
      next => cases h
      next urls _ =>
        dsimp only at h
        split at h
        next =>
          cases h
          intro c hc
          cases hc
        next =>
          split at h
          next username credential _ _ =>
            split at h
            next => cases h
            next hvalid =>
              simp only [Bool.or_eq_true, Bool.not_eq_true', not_or, Bool.not_eq_false] at hvalid
              exact urlCandidates_sound (solid_of_validCredentialValue hvalid.1)
                (solid_of_validCredentialValue hvalid.2) h
          next => cases h
    next => cases h
  next => cases h

theorem allCandidates_sound {servers : List Json} {found : List Candidate}
    (h : allCandidates lib servers = .ok found) : ∀ c ∈ found, c.Sound := by
  induction servers generalizing found with
  | nil =>
      cases h
      intro c hc
      cases hc
  | cons server rest ih =>
      cases hserver : serverCandidates lib server with
      | error x => simp [allCandidates, hserver, bind, Except.bind] at h
      | ok first =>
          cases hmore : allCandidates lib rest with
          | error x => simp [allCandidates, hserver, hmore, bind, Except.bind] at h
          | ok more =>
              simp only [allCandidates, hserver, hmore, bind, Except.bind, pure, Except.pure,
                Except.ok.injEq] at h
              subst h
              intro c hc
              obtain hc | hc := List.mem_append.1 hc
              · exact serverCandidates_sound hserver c hc
              · exact ih hmore c hc

/-- The least candidate is one of them. -/
theorem best_mem {candidates : List Candidate} (h : best candidates = some c) :
    c ∈ candidates := by
  cases candidates with
  | nil => cases h
  | cons first rest =>
      have hfold : ∀ (l : List Candidate) (d : Candidate),
          l.foldl (fun found d => if d.lt found then d else found) d ∈ d :: l := by
        intro l
        induction l with
        | nil => simp
        | cons e l ih =>
            intro d
            rw [List.foldl_cons]
            split
            next => exact List.mem_cons_of_mem d (ih e)
            next =>
              obtain heq | hmem := List.mem_cons.1 (ih d)
              · rw [heq]
                exact List.mem_cons_self
              · exact List.mem_cons_of_mem _ (List.mem_cons_of_mem _ hmem)
      rw [← Option.some.inj h]
      exact hfold rest first

/-- What is selected has no white space. -/
theorem selectTurnCredentials_sound {payload : Json}
    (h : selectTurnCredentials lib payload = .ok c) : c.Sound := by
  unfold selectTurnCredentials at h
  split at h
  next fields =>
    split at h
    next => cases h
    next =>
      split at h
      next server servers _ =>
        cases hall : allCandidates lib (server :: servers) with
        | error x => simp [hall, bind, Except.bind] at h
        | ok candidates =>
            simp only [hall, bind, Except.bind] at h
            split at h
            next => cases h
            next found hbest =>
              cases h
              exact allCandidates_sound hall c (best_mem hbest)
      next => cases h
  next => cases h

/-! ## Reading assignments -/

theorem parseLine_ok {line : List Char} {pair : String × String}
    (h : parseLine line = .ok pair) :
    Lines.partition '=' line = (pair.1.toList, some pair.2.toList) :=
  (parseLine_ok_iff.1 h).2.partition

/-- Every line of a file that is accepted is an assignment, to a key of its own. -/
theorem parseTrustedEnvironment_ok {file : File} {values : Values}
    (h : parseTrustedEnvironment (some file) = .ok values) :
    ∃ text, Utf8.decode file.body = some text ∧ (values.map Prod.fst).Nodup ∧
      List.Forall₂ (fun line pair => parseLine line = .ok pair)
        ((Lines.splitLines text.toList).map Prod.fst) values := by
  unfold parseTrustedEnvironment at h
  dsimp only at h
  split at h
  next => cases h
  next =>
    split at h
    next => cases h
    next text htext =>
      unfold parseText at h
      split at h
      next => cases h
      next =>
        obtain ⟨added, rfl, hadded, hnodup, -⟩ := parseLines_ok_iff.1 h
        exact ⟨text, htext, hnodup, hadded⟩

/-! ## The new file -/

/-- The text of a file with these keys, in this order. -/
def turnText (c : Candidate) (keys : List String) : List Char :=
  keys.flatMap fun key => assignment key (turnValue c key)

theorem runtimeKey_solid {key : String} (h : key ∈ runtimeTurnKeyOrder) :
    Solid key ∧ '=' ∉ key.toList := by
  have hall : ∀ key ∈ runtimeTurnKeyOrder,
      key.toList.all (fun d => !Text.isSpace d) = true ∧ '=' ∉ key.toList := by decide
  exact ⟨solid_of_all (hall key h).1, (hall key h).2⟩

theorem splitLines_turnText (hc : c.Sound) {keys : List String} (h : keys ⊆ runtimeTurnKeyOrder) :
    Lines.splitLines (turnText c keys) =
      keys.map fun key => (key.toList ++ '=' :: (turnValue c key).toList, ['\n']) := by
  induction keys with
  | nil => rfl
  | cons key rest ih =>
      have hkey := runtimeKey_solid (h List.mem_cons_self)
      have hline : ∀ d ∈ key.toList ++ '=' :: (turnValue c key).toList,
          Text.isSpace d = false := by
        intro d hd
        obtain hd | hd := List.mem_append.1 hd
        · exact hkey.1 d hd
        · obtain rfl | hd := List.mem_cons.1 hd
          · rfl
          · exact hc.value key d hd
      have htext : turnText c (key :: rest) =
          (key.toList ++ '=' :: (turnValue c key).toList) ++ '\n' :: turnText c rest := by
        simp [turnText, assignment]
      rw [htext, Lines.splitLines_append (Lines.not_isBreak hline),
        ih fun k hk => h (List.mem_cons_of_mem key hk), List.map_cons]

/-- If such a file is read, it says the values of the relay under the keys. -/
theorem values_of_turnText (hc : c.Sound) {keys : List String} (h : keys ⊆ runtimeTurnKeyOrder)
    {file : File} (hbody : file.body = Utf8.encode (String.ofList (turnText c keys)))
    {values : Values} (hparse : parseTrustedEnvironment (some file) = .ok values) :
    values = keys.map fun key => (key, turnValue c key) := by
  obtain ⟨text, htext, -, hlines⟩ := parseTrustedEnvironment_ok hparse
  rw [hbody, Utf8.decode_encode] at htext
  cases htext
  rw [String.toList_ofList, splitLines_turnText hc h, List.map_map] at hlines
  clear hbody hparse
  induction keys generalizing values with
  | nil =>
      cases hlines
      rfl
  | cons key rest ih =>
      cases hlines with
      | @cons _ pair _ more hline hmore =>
          have hpartition := parseLine_ok hline
          simp only [Function.comp_apply] at hpartition
          rw [Lines.partition_append (runtimeKey_solid (h List.mem_cons_self)).2] at hpartition
          obtain ⟨hkey, hvalue⟩ := Prod.mk.inj hpartition
          rw [List.map_cons, ih (fun k hk => h (List.mem_cons_of_mem key hk)) hmore]
          have hpair : pair = (key, turnValue c key) :=
            Prod.ext (String.toList_inj.1 hkey.symm)
              (String.toList_inj.1 (Option.some.inj hvalue).symm)
          rw [hpair]

/-- A line of one of the keys is replaced. -/
theorem replaceLine_of_key {line : List Char × List Char} {pair : String × String}
    (hline : parseLine line.1 = .ok pair) (hkey : pair.1 ∈ runtimeTurnKeyOrder) :
    replaceLine c line = (assignment pair.1 (turnValue c pair.1), some pair.1) := by
  rw [replaceLine, parseLine_ok hline]
  simp [hkey]

/-- Where the old file has no other keys, all its lines are replaced. -/
theorem map_replaceLine {lines : List (List Char × List Char)} {values : Values}
    (hlines : List.Forall₂ (fun line pair => parseLine line = .ok pair) (lines.map Prod.fst) values)
    (hkeys : values.map Prod.fst ⊆ runtimeTurnKeyOrder) :
    lines.map (replaceLine c) =
      values.map fun pair => (assignment pair.1 (turnValue c pair.1), some pair.1) := by
  rw [List.forall₂_map_left_iff] at hlines
  induction hlines with
  | nil => rfl
  | cons hline hmore ih =>
      have hkey := hkeys List.mem_cons_self
      rw [List.map_cons, List.map_cons, replaceLine_of_key hline hkey,
        ih fun k hk => hkeys (List.mem_cons_of_mem _ hk)]

/-- Where the old file has no other keys, the new one has the values of the relay under the
keys of the old one. -/
theorem replaceTurnValues_eq {previous new : List UInt8} {file : File} {values : Values}
    (hnew : replaceTurnValues previous c = .ok new) (hbody : file.body = previous)
    (hparse : parseTrustedEnvironment (some file) = .ok values)
    (hkeys : values.map Prod.fst ⊆ runtimeTurnKeyOrder) :
    new = Utf8.encode (String.ofList (turnText c (values.map Prod.fst))) := by
  obtain ⟨text, htext, -, hlines⟩ := parseTrustedEnvironment_ok hparse
  rw [hbody] at htext
  rw [replaceTurnValues, htext] at hnew
  dsimp only at hnew
  rw [map_replaceLine hlines hkeys] at hnew
  split at hnew
  next =>
    cases hnew
    rw [turnText, List.flatMap_map, List.flatMap_map]
  next => cases hnew

end TurnRefresh

end GateController
