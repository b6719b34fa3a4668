import GateController.Media.Environment
import Mathlib.Data.List.Forall2

/-!
# The grammar of an environment file

An environment file has no white space but line feeds, ends with one, and assigns a value to a
key on every line.  The parser looks for white space in each line after `splitlines` has broken
the text, and `splitlines` breaks at more characters than the line feed.  So a file with such a
character between two assignments is read as if a line feed stood there, while a reader that
breaks lines at line feeds only finds one assignment with a longer value.
-/

namespace GateController

open Data

namespace MediaConfig

/-! ## The grammar -/

/-- A line that assigns a value to a key. -/
structure IsAssignment (line : List Char) (pair : String × String) : Prop where
  spelled : line = pair.1.toList ++ '=' :: pair.2.toList
  key : matchesKey pair.1.toList = true
  value : pair.2.toList ≠ []

/-- An environment file, with what it assigns. -/
structure IsEnvironment (text : List Char) (values : Values) : Prop where
  spaces : ∀ c ∈ text, Text.isSpace c = true → c = '\n'
  ended : text.getLast? = some '\n'
  assigned : List.Forall₂ IsAssignment (Lines.linesAt (· == '\n') text) values
  once : (values.map Prod.fst).Nodup

/-- What a reader finds that breaks lines at line feeds only. -/
def readAssignments (text : List Char) : List (List Char × Option (List Char)) :=
  (Lines.linesAt (· == '\n') text).map (Lines.partition '=')

/-- A file is accepted exactly if it is in the grammar, with what it assigns, and no reader that
breaks lines at line feeds only reads it differently. -/
structure ReadByGrammar (body : List UInt8) : Prop where
  accepts : ∀ values, parseTrustedEnvironment (some { body }) = .ok values ↔
    ∃ text, Utf8.decode body = some text ∧ IsEnvironment text.toList values
  agrees : ∀ values, parseTrustedEnvironment (some { body }) = .ok values →
    ∃ text, Utf8.decode body = some text ∧ readAssignments text.toList =
      values.map fun pair => (pair.1.toList, some pair.2.toList)

/-- Where `splitlines` breaks, a line feed.  A carriage return stays, since it is looked for
before the text is broken. -/
def asLineFeed (c : Char) : Char := if Lines.isBreak c && c != '\r' then '\n' else c

/-- A file that breaks at another character than the line feed, and would be in the grammar if
there were a line feed. -/
def BreaksElsewhere (body : List UInt8) : Prop :=
  ∃ text, Utf8.decode body = some text ∧ text.toList.getLast? = some '\n' ∧
    (∃ c ∈ text.toList, Lines.isBreak c = true ∧ c ≠ '\n') ∧
    ∃ values, IsEnvironment (text.toList.map asLineFeed) values

/-! ## What the grammar says of a file -/

section Grammar

variable {text : List Char} {values : Values}

/-- A key has no separator in it. -/
theorem separator_not_mem_of_matchesKey {key : List Char} (h : matchesKey key = true) :
    '=' ∉ key := by
  cases key with
  | nil => cases h
  | cons first rest =>
      rw [matchesKey, Bool.and_eq_true] at h
      intro hmem
      rcases List.mem_cons.1 hmem with rfl | hrest
      · cases h.1
      · cases List.all_eq_true.1 h.2 '=' hrest

/-- A line is cut where the key ends. -/
theorem IsAssignment.partition {line : List Char} {pair : String × String}
    (h : IsAssignment line pair) :
    Lines.partition '=' line = (pair.1.toList, some pair.2.toList) :=
  Lines.partition_eq_iff.2 ⟨separator_not_mem_of_matchesKey h.key, h.spelled⟩

/-- Line by line, what the grammar assigns is what is read. -/
theorem IsEnvironment.readAssignments (h : IsEnvironment text values) :
    readAssignments text = values.map fun pair => (pair.1.toList, some pair.2.toList) := by
  have hlines := h.assigned
  rw [MediaConfig.readAssignments]
  generalize Lines.linesAt (· == '\n') text = lines at hlines
  clear h
  induction hlines with
  | nil => rfl
  | cons hline hmore ih => rw [List.map_cons, List.map_cons, hline.partition, ih]

end Grammar

/-! ## The parser -/

section Parser

variable {text : List Char} {values : Values}

theorem parseLine_ok_iff {line : List Char} {pair : String × String} :
    parseLine line = .ok pair ↔
      (∀ c ∈ line, Text.isSpace c = false) ∧ IsAssignment line pair := by
  constructor
  · intro h
    unfold parseLine at h
    split at h
    next => cases h
    next hsolid =>
      have hspace : ∀ c ∈ line, Text.isSpace c = false := by
        intro c hc
        cases hspace : Text.isSpace c with
        | false => rfl
        | true => exact absurd (by simp only [Bool.or_eq_true, List.any_eq_true]
                                   exact .inr ⟨c, hc, hspace⟩) hsolid
      split at h
      next key value hpartition =>
        split at h
        next => cases h
        next hvalid =>
          cases h
          simp only [Bool.or_eq_true, Bool.not_eq_true', not_or, Bool.not_eq_false,
            List.isEmpty_iff] at hvalid
          obtain ⟨-, hspelled⟩ := Lines.partition_eq_iff.1 hpartition
          exact ⟨hspace, by simpa using hspelled, by simpa using hvalid.1, by simpa using hvalid.2⟩
      next => cases h
  · rintro ⟨hspace, h⟩
    have hline : (line.isEmpty || line.any Text.isSpace) = false := by
      rw [Bool.or_eq_false_iff, List.any_eq_false]
      refine ⟨?_, fun c hc => by simp [hspace c hc]⟩
      rw [h.spelled]
      simp
    rw [parseLine, hline, if_neg Bool.false_ne_true, h.partition]
    simp [h.key, h.value]

/-- The loop accepts lines that are assignments to keys that are new. -/
theorem parseLines_ok_iff {before out : Values} {lines : List (List Char)} :
    parseLines before lines = .ok out ↔
      ∃ added, out = before ++ added ∧
        List.Forall₂ (fun line pair => parseLine line = .ok pair) lines added ∧
        (added.map Prod.fst).Nodup ∧ ∀ key ∈ added.map Prod.fst, key ∉ before.map Prod.fst := by
  induction lines generalizing before with
  | nil =>
      rw [parseLines, Except.ok.injEq]
      constructor
      · rintro rfl
        exact ⟨[], (List.append_nil _).symm, .nil, List.nodup_nil, by simp⟩
      · rintro ⟨added, rfl, hadded, -⟩
        cases hadded
        exact (List.append_nil _).symm
  | cons line rest ih =>
      rw [parseLines]
      split
      next message hline =>
        constructor
        · intro h
          cases h
        · rintro ⟨added, -, hadded, -⟩
          cases hadded with
          | cons hfirst => cases hline.symm.trans hfirst
      next key value hline =>
        split
        next hold =>
          constructor
          · intro h
            cases h
          · rintro ⟨added, -, hadded, -, hnew⟩
            cases hadded with
            | cons hfirst =>
                cases hline.symm.trans hfirst
                exact absurd hold (hnew key List.mem_cons_self)
        next hfresh =>
          rw [ih]
          constructor
          · rintro ⟨added, rfl, hadded, hnodup, hnew⟩
            refine ⟨(key, value) :: added, by simp, .cons hline hadded, ?_, ?_⟩
            · refine List.nodup_cons.2 ⟨fun hmem => ?_, hnodup⟩
              exact hnew key hmem (by simp)
            · intro k hk
              rcases List.mem_cons.1 hk with rfl | hk
              · exact hfresh
              · exact fun hmem => hnew k hk (by simp [hmem])
          · rintro ⟨added, rfl, hadded, hnodup, hnew⟩
            cases hadded with
            | @cons _ pair _ more hfirst hmore =>
                cases hline.symm.trans hfirst
                obtain ⟨hkey, hnodup⟩ := List.nodup_cons.1 hnodup
                refine ⟨more, by simp, hmore, hnodup, fun k hk hmem => ?_⟩
                rw [List.map_append, List.mem_append] at hmem
                rcases hmem with hmem | hmem
                · exact hnew k (List.mem_cons_of_mem key hk) hmem
                · rw [List.map_cons, List.map_nil, List.mem_singleton] at hmem
                  exact hkey (hmem ▸ hk)

/-- What lines without white space assign. -/
theorem forall₂_parseLine_iff {lines : List (List Char)} :
    List.Forall₂ (fun line pair => parseLine line = .ok pair) lines values ↔
      (∀ line ∈ lines, ∀ c ∈ line, Text.isSpace c = false) ∧
        List.Forall₂ IsAssignment lines values := by
  simp only [parseLine_ok_iff]
  exact List.forall₂_and_left _ _

/-- A line feed stands where `splitlines` breaks, and nothing else is changed. -/
theorem asLineFeed_of_ne {c : Char} (h : c ≠ '\r') :
    (asLineFeed c == '\n') = Lines.isBreak c ∧ (Lines.isBreak c = false → asLineFeed c = c) := by
  have hreturn : (c != '\r') = true := bne_iff_ne.2 h
  rw [asLineFeed, hreturn, Bool.and_true]
  cases hbreak : Lines.isBreak c with
  | true => exact ⟨rfl, fun h => (by cases h)⟩
  | false =>
      refine ⟨?_, fun _ => rfl⟩
      rw [if_neg Bool.false_ne_true, beq_eq_false_iff_ne]
      rintro rfl
      cases hbreak

/-- The parser accepts a text if it would be in the grammar with line feeds at every break. -/
theorem parseText_ok_iff :
    parseText text = .ok values ↔
      text.getLast? = some '\n' ∧ IsEnvironment (text.map asLineFeed) values := by
  by_cases hreturn : '\r' ∈ text
  · have hany : text.any (· == '\r') = true := List.any_eq_true.2 ⟨'\r', hreturn, rfl⟩
    constructor
    · intro h
      rw [parseText, hany] at h
      cases h
    · rintro ⟨-, h⟩
      -- The carriage return is still there, and it is white space.
      have hmem : '\r' ∈ text.map asLineFeed := List.mem_map.2 ⟨'\r', hreturn, rfl⟩
      cases h.spaces '\r' hmem rfl
  · have hno : ∀ c ∈ text, c ≠ '\r' := fun c hc heq => hreturn (heq ▸ hc)
    have hany : text.any (· == '\r') = false := by
      rw [List.any_eq_false]
      exact fun c hc => by simpa using hno c hc
    have hlines : Lines.linesAt (· == '\n') (text.map asLineFeed) =
        (Lines.splitLines text).map Prod.fst :=
      (Lines.linesAt_map fun c hc => asLineFeed_of_ne (hno c hc)).trans
        (Lines.splitLines_eq_linesAt hno).symm
    rw [parseText, hany, Bool.false_or]
    constructor
    · intro h
      split at h
      next => cases h
      next hlast =>
        have hlast : text.getLast? = some '\n' := by simpa using hlast
        obtain ⟨added, rfl, hadded, hnodup, -⟩ := parseLines_ok_iff.1 h
        obtain ⟨hspace, hassigned⟩ := forall₂_parseLine_iff.1 hadded
        rw [← hlines] at hspace hassigned
        refine ⟨hlast, ?_, ?_, hassigned, hnodup⟩
        · intro c hc hspaced
          by_contra hne
          have hsolid := Lines.forall_mem_linesAt.1 hspace c hc (by simpa using hne)
          exact Bool.false_ne_true (hsolid.symm.trans hspaced)
        · rw [List.getLast?_map, hlast]
          rfl
    · rintro ⟨hlast, h⟩
      rw [hlast, bne_self_eq_false, if_neg Bool.false_ne_true]
      refine parseLines_ok_iff.2 ⟨values, rfl, forall₂_parseLine_iff.2 ?_, h.once, by simp⟩
      rw [← hlines]
      refine ⟨Lines.forall_mem_linesAt.2 fun c hc hne => ?_, h.assigned⟩
      cases hspaced : Text.isSpace c with
      | false => rfl
      | true =>
          rw [h.spaces c hc hspaced] at hne
          cases hne

/-- A text that breaks at line feeds only has a line feed there already. -/
theorem map_asLineFeed (h : ∀ c ∈ text, Lines.isBreak c = true → c = '\n') :
    text.map asLineFeed = text := by
  induction text with
  | nil => rfl
  | cons c rest ih =>
      have hc : asLineFeed c = c := by
        rw [asLineFeed]
        split
        next hbreak => exact (h c List.mem_cons_self (Bool.and_eq_true_iff.1 hbreak).1).symm
        next => rfl
      rw [List.map_cons, hc, ih fun d hd => h d (List.mem_cons_of_mem c hd)]

end Parser

/-! ## Files -/

/-- A file that is not empty, and not too long, is decoded and parsed. -/
theorem parseTrustedEnvironment_ok_iff {body : List UInt8} (hsize : body.length ≤ maxConfigBytes)
    {values : Values} :
    parseTrustedEnvironment (some { body }) = .ok values ↔
      ∃ text, Utf8.decode body = some text ∧ text.toList.getLast? = some '\n' ∧
        IsEnvironment (text.toList.map asLineFeed) values := by
  simp only [← parseText_ok_iff]
  rw [parseTrustedEnvironment]
  cases body with
  | nil =>
      constructor
      · intro h
        cases h
      · rintro ⟨text, htext, h⟩
        have hempty : text = "" := Option.some.inj (htext.symm.trans (Utf8.decode_encode ""))
        rw [hempty] at h
        cases h
  | cons byte rest =>
      have hlong : ¬ (byte :: rest).length > maxConfigBytes := Nat.not_lt.2 hsize
      simp only [Bool.not_true, Bool.false_or, List.isEmpty_cons, decide_eq_false hlong,
        Bool.false_eq_true, if_false]
      cases hdecode : Utf8.decode (byte :: rest) with
      | none => simp
      | some text => simp

/-- A file is read by its grammar, unless it breaks at another character than the line feed and
would be in the grammar if there were a line feed. -/
theorem readByGrammar_iff (body : List UInt8) (hsize : body.length ≤ maxConfigBytes) :
    ReadByGrammar body ↔ ¬ BreaksElsewhere body := by
  constructor
  · rintro h ⟨text, htext, hlast, ⟨c, hc, hbreak, hne⟩, values, henv⟩
    have hok := (parseTrustedEnvironment_ok_iff hsize).2 ⟨text, htext, hlast, henv⟩
    obtain ⟨text', htext', hgrammar⟩ := (h.accepts values).1 hok
    cases htext.symm.trans htext'
    exact hne (hgrammar.spaces c hc (Lines.isSpace_of_isBreak hbreak))
  · intro h
    have haccepts : ∀ values, parseTrustedEnvironment (some { body }) = .ok values ↔
        ∃ text, Utf8.decode body = some text ∧ IsEnvironment text.toList values := by
      intro values
      rw [parseTrustedEnvironment_ok_iff hsize]
      constructor
      · rintro ⟨text, htext, hlast, henv⟩
        refine ⟨text, htext, ?_⟩
        have hbreaks : ∀ c ∈ text.toList, Lines.isBreak c = true → c = '\n' := by
          intro c hc hbreak
          by_contra hne
          exact h ⟨text, htext, hlast, ⟨c, hc, hbreak, hne⟩, values, henv⟩
        rwa [map_asLineFeed hbreaks] at henv
      · rintro ⟨text, htext, henv⟩
        have hbreaks : ∀ c ∈ text.toList, Lines.isBreak c = true → c = '\n' :=
          fun c hc hbreak => henv.spaces c hc (Lines.isSpace_of_isBreak hbreak)
        exact ⟨text, htext, henv.ended, by rwa [map_asLineFeed hbreaks]⟩
    refine ⟨haccepts, fun values hok => ?_⟩
    obtain ⟨text, htext, henv⟩ := (haccepts values).1 hok
    exact ⟨text, htext, henv.readAssignments⟩

/-- Three assignments, each on a line of its own. -/
def assignments : String := "A=1\nB_2=x=y\nC=é\n"

/-- They are accepted, and they are read by the grammar. -/
theorem readByGrammar_iff_three :
    parseTrustedEnvironment (some { body := Utf8.encode assignments }) =
        .ok [("A", "1"), ("B_2", "x=y"), ("C", "é")] ∧
      readAssignments assignments.toList =
        [(['A'], some ['1']), (['B', '_', '2'], some ['x', '=', 'y']), (['C'], some ['é'])] ∧
      ReadByGrammar (Utf8.encode assignments) := by
  have hok : parseTrustedEnvironment (some { body := Utf8.encode assignments }) =
      .ok [("A", "1"), ("B_2", "x=y"), ("C", "é")] := by
    rw [parseTrustedEnvironment, Utf8.decode_encode]
    rfl
  refine ⟨hok, by rfl, (readByGrammar_iff _ (by decide +kernel)).2 ?_⟩
  rintro ⟨text, htext, -, ⟨c, hc, hbreak, hne⟩, -⟩
  rw [Utf8.decode_encode] at htext
  cases htext
  have hbreaks : assignments.toList.all (fun c => !Lines.isBreak c || c == '\n') = true := by
    decide
  have hc := List.all_eq_true.1 hbreaks c hc
  rw [hbreak] at hc
  exact hne (beq_iff_eq.1 hc)

/-- Two assignments with a vertical tab between them. -/
def verticalTab : List UInt8 := [65, 61, 49, 11, 66, 61, 50, 10]

/-- They are read as two, where a reader that breaks lines at line feeds finds one. -/
theorem verticalTab_misread :
    parseTrustedEnvironment (some { body := verticalTab }) = .ok [("A", "1"), ("B", "2")] ∧
      readAssignments "A=1\x0bB=2\n".toList = [(['A'], some "1\x0bB=2".toList)] ∧
      ¬ ReadByGrammar verticalTab := by
  have hbody : verticalTab = Utf8.encode "A=1\x0bB=2\n" := by decide +kernel
  have hok : parseTrustedEnvironment (some { body := verticalTab }) =
      .ok [("A", "1"), ("B", "2")] := by
    rw [hbody, parseTrustedEnvironment, Utf8.decode_encode]
    rfl
  refine ⟨hok, by rfl, fun h => ?_⟩
  obtain ⟨text, htext, henv⟩ := (h.accepts _).1 hok
  rw [hbody, Utf8.decode_encode] at htext
  cases htext
  cases henv.spaces '\x0b' (by decide) (by decide)

end MediaConfig

end GateController
