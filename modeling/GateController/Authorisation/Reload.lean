import GateController.Authorisation.Replacement
import GateController.Data.Csv
import GateController.Data.Text

/-!
# Reading the plates back

`reload_local` reads the file that `replace` has written.  The writer and the reader are
independent, and the time of the snapshot is a clock's reading for one of them and the file's
for the other.

A reader of comma-separated values raises on a field that is too long, and the writer does not.
Up to that length `restart_keeps_plates` says that a restart has the same plates, and that
`get` never returns other plates than those that were taken last, nor any of a wrong age.
-/

namespace GateController

open Data Effects

namespace AuthorisedPlateCache

/-! ## The file -/

/-- `row[0].strip()`, if the row has a first field that is not blank. -/
def rowField (row : List String) : Option String :=
  match row with
  | [] => none
  | field :: _ => if Text.strip field = "" then none else some (Text.strip field)

/-- The plates of the rows after the heading. -/
def platesOfRows (width : Nat) : List (List String) → Except String (List String)
  | [] => .ok []
  | row :: rows =>
      match rowField row with
      | none => platesOfRows width rows
      | some plate =>
          if row.length ≠ width then .error "authorised plates CSV has malformed row"
          else (platesOfRows width rows).map fun plates => plate :: plates

/-- The plates of all rows, if the first is a heading. -/
def platesOfTable : List (List String) → Except String (List String)
  | (field :: heading) :: rows =>
      if Text.lower (Text.strip field) ≠ "plate" then
        .error "authorised plates CSV has no plate header"
      else platesOfRows (field :: heading).length rows
  | _ => .error "authorised plates CSV has no plate header"

/-- `_read_complete_file`, of a text. -/
def platesOfText (text : String) : Except String (List String) := do
  platesOfTable (← Csv.read text)

/-- What `reload_local` meets: the two results of `_file_version`, the text of the exception
that the file raises if it cannot be opened or decoded, and its time. -/
structure Reading where
  first : Except String FileVersion
  unreadable : Option String := none
  undecodable : String := "'utf-8' codec can't decode byte"
  second : Except String FileVersion
  modifiedAt : Except String Instant

/-- `_read_complete_file`. -/
def readCompleteFile (reading : Reading) (csv : Option (List UInt8)) :
    Except String (List String) :=
  match reading.unreadable, csv with
  | some message, _ => .error message
  | none, none => .error "[Errno 2] No such file or directory"
  | none, some bytes =>
      match Utf8.decode bytes with
      | none => .error reading.undecodable
      | some text => platesOfText text

/-- The `try` of `reload_local`. -/
def readLocal (reading : Reading) (csv : Option (List UInt8)) :
    Except String (FileVersion × List String) := do
  let version ← reading.first
  let refreshed ← readCompleteFile reading csv
  let again ← reading.second
  if again ≠ version then throw "authorised plates CSV changed during refresh"
  else return (version, refreshed)

/-- `modified_at > self._refreshed_at`.  A naive time cannot be compared. -/
def isNewer (modifiedAt : Instant) : Option DateTime → Except String Bool
  | none => .ok true
  | some refreshedAt =>
      if refreshedAt.offset.isNone then
        .error "can't compare offset-naive and offset-aware datetimes"
      else .ok (decide (refreshedAt.utc < modifiedAt))

/-- `reload_local`: what it returns or raises, and the cache after it. -/
def reloadLocal (reading : Reading) (s : State) : Except String Bool × State :=
  match readLocal reading s.csv with
  | .error message => (.ok false, { s with lastError := some message })
  | .ok (version, refreshed) =>
      let s := { s with plates := some refreshed, version := some version }
      match (do
        let modifiedAt ← reading.modifiedAt
        return (modifiedAt, ← isNewer modifiedAt s.refreshedAt)) with
      | .error message => (.error message, s)
      | .ok (modifiedAt, newer) =>
          (.ok true, { s with
            refreshedAt := if newer then some ⟨modifiedAt, some 0⟩ else s.refreshedAt
            lastError := none })

/-- `__init__` before it reads the file. -/
def fresh (csv : Option (List UInt8)) : State :=
  { csv, plates := none, version := none, refreshedAt := none, lastError := none }

/-! ## Plates in the file -/

/-- The characters of a normalised plate. -/
theorem upperAlnum_isAlphanum (c : Char) : ∀ d ∈ upperAlnum c, d.isAlphanum = true := by
  have hlist : ∀ l : List Char, l.all Char.isAlphanum = true → ∀ d ∈ l, d.isAlphanum = true :=
    fun l h => List.all_eq_true.1 h
  unfold upperAlnum
  split
  next h => exact hlist _ (by rw [List.all_cons, Text.isAlphanum_toUpper h]; rfl)
  next => split <;> exact hlist _ (by decide)

theorem plain_of_isAlphanum {c : Char} (h : c.isAlphanum = true) : Csv.plain c = true := by
  refine Csv.plain_iff.2 ⟨?_, ?_, ?_⟩
  · cases hline : Csv.isNewline c with
    | false => rfl
    | true =>
        simp only [Csv.isNewline, Bool.or_eq_true, decide_eq_true_eq] at hline
        obtain rfl | rfl := hline
        · cases h
        · cases h
  · rintro rfl
    cases h
  · rintro rfl
    cases h

theorem normalisePlate_isAlphanum (value : String) :
    ∀ c ∈ (normalisePlate value).toList, c.isAlphanum = true := by
  intro c hc
  rw [normalisePlate, String.toList_ofList] at hc
  obtain ⟨d, -, hd⟩ := List.mem_flatMap.1 hc
  exact upperAlnum_isAlphanum d c hd

theorem mem_normalized {plates : List String} {plate : String} :
    plate ∈ normalized plates ↔ (∃ value ∈ plates, normalisePlate value = plate) ∧ plate ≠ "" := by
  rw [normalized, List.mem_insertionSort, List.mem_filter, List.mem_map, bne_iff_ne]

theorem normalized_isAlphanum (plates : List String) :
    ∀ plate ∈ normalized plates, ∀ c ∈ plate.toList, c.isAlphanum = true := by
  intro plate hplate
  obtain ⟨⟨value, -, rfl⟩, -⟩ := mem_normalized.1 hplate
  exact normalisePlate_isAlphanum value

/-- The lines of the file. -/
theorem csvText_eq {plates : List String}
    (h : ∀ plate ∈ plates, ∀ c ∈ plate.toList, Csv.plain c = true) :
    (csvText plates).toList = (("plate" :: plates).map String.toList).flatMap Csv.lineOf := by
  have hfield : ∀ field ∈ "plate" :: plates, csvField field ++ ['\r', '\n'] =
      Csv.lineOf field.toList := by
    intro field hfield
    have hplain : ∀ c ∈ field.toList, Csv.plain c = true := by
      obtain rfl | hfield := List.mem_cons.1 hfield
      · exact List.all_eq_true.1 (by decide)
      · exact h field hfield
    rw [Csv.lineOf, csvField, if_neg]
    rw [List.any_eq_true]
    rintro ⟨c, hc, hspecial⟩
    obtain ⟨hline, hcomma, hquote⟩ := Csv.plain_iff.1 (hplain c hc)
    simp only [Csv.isNewline, Bool.or_eq_false_iff, decide_eq_false_iff_not] at hline
    simp [hcomma, hquote, hline.1, hline.2] at hspecial
  rw [csvText, String.toList_ofList, List.flatMap_map]
  exact List.flatMap_congr hfield

/-- Rows of one plate each are read as these plates. -/
theorem platesOfRows_map {plates : List String}
    (h : ∀ plate ∈ plates, plate ≠ "" ∧ ∀ c ∈ plate.toList, c.isAlphanum = true) :
    platesOfRows 1 (plates.map fun plate => [plate]) = .ok plates := by
  induction plates with
  | nil => rfl
  | cons plate plates ih =>
      obtain ⟨hne, halnum⟩ := h plate List.mem_cons_self
      have hstrip : Text.strip plate = plate :=
        Text.strip_of_forall fun c hc => Text.not_isSpace_of_isAlphanum (halnum c hc)
      rw [List.map_cons, platesOfRows, rowField, hstrip, if_neg hne]
      rw [ih fun other hother => h other (List.mem_cons_of_mem plate hother)]
      rfl

theorem platesOfText_of_ok {text : String} {rows : List (List String)}
    (h : Csv.read text = .ok rows) : platesOfText text = platesOfTable rows := by
  rw [platesOfText, h]
  rfl

/-- The file that is written for some plates is read back as the normalised plates. -/
theorem platesOfText_csvText {plates : List String}
    (hfits : ∀ plate ∈ normalized plates, plate.toList.length ≤ Csv.fieldSizeLimit) :
    platesOfText (csvText (normalized plates)) = .ok (normalized plates) := by
  have halnum := normalized_isAlphanum plates
  have hplain : ∀ plate ∈ normalized plates, ∀ c ∈ plate.toList, Csv.plain c = true :=
    fun plate hplate c hc => plain_of_isAlphanum (halnum plate hplate c hc)
  have hrows : Csv.read (csvText (normalized plates)) =
      .ok (("plate" :: normalized plates).map fun plate => [plate]) := by
    have hall : ∀ field ∈ ("plate" :: normalized plates).map String.toList,
        (∀ c ∈ field, Csv.plain c = true) ∧ field ≠ [] ∧
          field.length ≤ Csv.fieldSizeLimit := by
      intro field hfield
      obtain ⟨plate, hplate, rfl⟩ := List.mem_map.1 hfield
      obtain rfl | hplate := List.mem_cons.1 hplate
      · exact ⟨List.all_eq_true.1 (by decide), by decide, by decide⟩
      · exact ⟨hplain plate hplate, fun hnil => (mem_normalized.1 hplate).2
          (String.toList_inj.1 hnil), hfits plate hplate⟩
    rw [Csv.read, csvText_eq hplain, Csv.lines_flatMap fun field hfield => (hall field hfield).1,
      Csv.readLines_map (fun field hfield => (hall field hfield).1)
        (fun field hfield => (hall field hfield).2.1) fun field hfield => (hall field hfield).2.2,
      List.map_map]
    refine congrArg Except.ok (List.map_congr_left fun plate _ => ?_)
    simp
  have hheading : Text.lower (Text.strip "plate") = "plate" := by decide +kernel
  rw [platesOfText_of_ok hrows, List.map_cons, platesOfTable, hheading,
    if_neg (not_not_intro rfl)]
  exact platesOfRows_map fun plate hplate =>
    ⟨(mem_normalized.1 hplate).2, halnum plate hplate⟩

/-! ## A replacement -/

section Replace

variable {env : Surroundings} {fails : Call → Bool} {plates : List String} {s s' : State}

/-- What `get` looks at. -/
def held (s : State) : Option (List String) × Option DateTime := (s.plates, s.refreshedAt)

theorem keeps_os {l : Call} {f : State → State} (h : ∀ s, held (f s) = held s) :
    Fallible.Keeps held (os env l f) := Fallible.Keeps.call h

theorem keeps_fsyncDirectory : Fallible.Keeps held (fsyncDirectory env) :=
  (keeps_os (by intro s; rfl)).bind fun _ =>
    (keeps_os (by intro s; rfl)).finally_ (keeps_os (by intro s; rfl))

/-- Installing the file does not touch what `get` looks at. -/
theorem keeps_install (bytes : List UInt8) : Fallible.Keeps held (install env bytes) := by
  have htext : Fallible.Keeps held (writeText env bytes) :=
    (Fallible.Keeps.writeAll (by intro part s; rfl) 0 bytes).bind fun _ =>
      keeps_os (by intro s; rfl)
  exact (htext.finally_ (keeps_os (by intro s; rfl))).bind fun _ =>
    (keeps_os (by intro s; rfl)).bind fun _ => keeps_fsyncDirectory

/-- The part of a replacement before the plates are taken. -/
theorem keeps_before (bytes : List UInt8) : Fallible.Keeps held
    ((install env bytes).finally_ (os env .unlink fun s => { s with temporary := none })) :=
  (keeps_install bytes).finally_ (keeps_os (by intro s; rfl))

/-- A replacement that raises has not touched what `get` looks at, unless the last `stat`
fails. -/
theorem replace_error (hstat : fails .stat = false) {x : String}
    (h : replace env plates fails s = (.error x, s')) : held s' = held s := by
  rw [replace] at h
  cases hmkdir : fails .mkdir with
  | true =>
      rw [Fallible.bind_of_error (os_fails hmkdir)] at h
      cases h
      rfl
  | false =>
      rw [Fallible.bind_of_ok (os_id_ok hmkdir)] at h
      cases hmkstemp : fails .mkstemp with
      | true =>
          rw [Fallible.bind_of_error (os_fails hmkstemp)] at h
          cases h
          rfl
      | false =>
          rw [Fallible.bind_of_ok (os_ok hmkstemp)] at h
          have hkeeps := @keeps_before env (csvBytes plates) fails
            { s with temporary := some [] }
          cases hrun : (install env (csvBytes plates)).finally_
              (os env .unlink fun s => { s with temporary := none }) fails
              { s with temporary := some [] } with
          | mk r s₁ =>
              rw [hrun] at hkeeps
              cases r with
              | error y =>
                  rw [Fallible.bind_of_error hrun] at h
                  cases h
                  exact hkeeps
              | ok u =>
                  rw [Fallible.bind_of_ok hrun, take,
                    Fallible.bind_of_ok (Fallible.modify_run _),
                    Fallible.bind_of_ok (os_ok hstat)] at h
                  cases h

theorem os_eq_ok {l : Call} {f : State → State} (h : os env l f fails s = (.ok (), s')) :
    s' = f s ∧ fails l = false := by
  cases hfails : fails l with
  | true =>
      rw [os_fails hfails] at h
      cases h
  | false =>
      rw [os_ok hfails] at h
      cases h
      exact ⟨rfl, rfl⟩

/-- A replacement that returns has written the file and taken the plates. -/
theorem replace_ok (h : replace env plates fails s = (.ok (), s')) :
    Taken plates s' ∧ s'.refreshedAt = some env.now := by
  rw [replace] at h
  obtain ⟨⟨⟩, s₁, hmkdir, h⟩ := Fallible.bind_eq_ok_iff.1 h
  obtain ⟨⟨⟩, s₂, hmkstemp, h⟩ := Fallible.bind_eq_ok_iff.1 h
  obtain ⟨⟨⟩, s₃, hfile, htake⟩ := Fallible.bind_eq_ok_iff.1 h
  obtain ⟨rfl, -⟩ := os_eq_ok hmkstemp
  have hcsv : s₃.csv = some (csvBytes plates) := by
    obtain ⟨s₄, hbody, hunlink⟩ := Fallible.finally_eq_ok hfile
    obtain ⟨rfl, -⟩ := os_eq_ok hunlink
    obtain ⟨hinstall, -⟩ | ⟨x, temporary, hinstall, -⟩ | ⟨x, hinstall, -⟩ :=
      install_cases (s := { s₁ with temporary := some [] })
        (csvBytes plates) rfl
    · cases hinstall.symm.trans hbody
      rfl
    · cases hinstall.symm.trans hbody
    · cases hinstall.symm.trans hbody
  rw [take, Fallible.bind_of_ok (Fallible.modify_run _)] at htake
  obtain ⟨⟨⟩, s₄, hstat, htake⟩ := Fallible.bind_eq_ok_iff.1 htake
  obtain ⟨rfl, -⟩ := os_eq_ok hstat
  cases htake
  exact ⟨⟨hcsv, rfl⟩, rfl⟩

/-- A replacement of which no call fails returns. -/
theorem replace_of_not_failing (env : Surroundings) (plates : List String) (s : State)
    (h : ∀ l, fails l = false) : ∃ s', replace env plates fails s = (.ok (), s') := by
  rw [replace, Fallible.bind_of_ok (os_id_ok (h _)), Fallible.bind_of_ok (os_ok (h _))]
  obtain ⟨hinstall, -⟩ | ⟨x, temporary, -, hfails⟩ | ⟨x, -, hfails⟩ :=
    install_cases (s := { s with temporary := some [] })
      (csvBytes plates) rfl
  · rw [Fallible.bind_of_ok (Fallible.finally_of_ok hinstall (os_ok (h _))), take,
      Fallible.bind_of_ok (Fallible.modify_run _), Fallible.bind_of_ok (os_ok (h _))]
    exact ⟨_, rfl⟩
  · simp [h] at hfails
  · simp [h] at hfails

end Replace

/-! ## A reload -/

section Reload

variable {reading : Reading} {plates : List String} {s s' : State}

/-- Nothing disturbs the reading: the file is there and does not change, and its time can be
compared with that of the snapshot. -/
structure Quiet (reading : Reading) (s : State) : Prop where
  still : ∃ version, reading.first = .ok version ∧ reading.second = .ok version
  readable : reading.unreadable = none
  dated : ∃ modifiedAt, reading.modifiedAt = .ok modifiedAt
  aware : ∀ refreshedAt, s.refreshedAt = some refreshedAt → refreshedAt.offset ≠ none

theorem readLocal_of_quiet {text : String} (h : Quiet reading s)
    (hcsv : s.csv = some (Utf8.encode text)) :
    ∃ version, readLocal reading s.csv =
      (platesOfText text).map fun plates => (version, plates) := by
  obtain ⟨version, hfirst, hsecond⟩ := h.still
  refine ⟨version, ?_⟩
  have hread : readCompleteFile reading s.csv = platesOfText text := by
    simp [readCompleteFile, h.readable, hcsv]
  rw [readLocal, hfirst, hread, hsecond]
  cases platesOfText text with
  | error x => rfl
  | ok plates => simp [Bind.bind, Except.bind, Except.map, Pure.pure, Except.pure]

/-- The file of some plates is read back, if nothing disturbs the reading. -/
theorem reloadLocal_of_quiet (h : Quiet reading s) (hcsv : s.csv = some (csvBytes plates))
    (hfits : ∀ plate ∈ normalized plates, plate.toList.length ≤ Csv.fieldSizeLimit) :
    ∃ s', reloadLocal reading s = (.ok true, s') ∧ s'.plates = some (normalized plates) := by
  obtain ⟨version, hread⟩ := readLocal_of_quiet h hcsv
  rw [platesOfText_csvText hfits] at hread
  obtain ⟨modifiedAt, hmodified⟩ := h.dated
  have hnewer : ∃ newer, isNewer modifiedAt s.refreshedAt = .ok newer := by
    cases hrefreshed : s.refreshedAt with
    | none => exact ⟨true, rfl⟩
    | some refreshedAt =>
        have haware := h.aware refreshedAt hrefreshed
        rw [isNewer, if_neg (by simpa using haware)]
        exact ⟨_, rfl⟩
  obtain ⟨newer, hnewer⟩ := hnewer
  rw [reloadLocal, hread]
  simp only [Except.map, hmodified, hnewer, Bind.bind, Except.bind, Pure.pure, Except.pure]
  exact ⟨_, rfl, rfl⟩

/-- The time of a snapshot after a reload: the later one of its own and that of the file. -/
def laterTime (modifiedAt : Instant) : Option DateTime → DateTime
  | none => ⟨modifiedAt, some 0⟩
  | some refreshedAt =>
      if refreshedAt.utc < modifiedAt then ⟨modifiedAt, some 0⟩ else refreshedAt

theorem laterTime_of_isNewer {modifiedAt : Instant} {refreshedAt : Option DateTime} {newer : Bool}
    (h : isNewer modifiedAt refreshedAt = .ok newer) :
    (if newer then some ⟨modifiedAt, some 0⟩ else refreshedAt) =
      some (laterTime modifiedAt refreshedAt) := by
  cases refreshedAt with
  | none =>
      cases h
      rfl
  | some refreshedAt =>
      rw [isNewer] at h
      split at h
      next => cases h
      next =>
        cases h
        by_cases hlt : refreshedAt.utc < modifiedAt <;> simp [laterTime, hlt]

/-- A reload that succeeds has taken the plates that it read, and the later time. -/
theorem reloadLocal_true (h : reloadLocal reading s = (.ok true, s')) :
    ∃ version refreshed modifiedAt, readLocal reading s.csv = .ok (version, refreshed) ∧
      reading.modifiedAt = .ok modifiedAt ∧ s'.plates = some refreshed ∧
      s'.refreshedAt = some (laterTime modifiedAt s.refreshedAt) := by
  rw [reloadLocal] at h
  split at h
  next => cases h
  next version refreshed hread =>
    dsimp only at h
    split at h
    next => cases h
    next modifiedAt newer hnewer =>
      cases h
      cases hmodified : reading.modifiedAt with
      | error x =>
          rw [hmodified] at hnewer
          cases hnewer
      | ok modified =>
          rw [hmodified] at hnewer
          cases hisnewer : isNewer modified s.refreshedAt with
          | error x =>
              simp only [Bind.bind, Except.bind, hisnewer] at hnewer
              cases hnewer
          | ok isnewer =>
              simp only [Bind.bind, Except.bind, hisnewer] at hnewer
              cases hnewer
              exact ⟨version, refreshed, _, hread, rfl, rfl, laterTime_of_isNewer hisnewer⟩

/-- A reload that reports failure has not touched what `get` looks at. -/
theorem reloadLocal_false (h : reloadLocal reading s = (.ok false, s')) : held s' = held s := by
  rw [reloadLocal] at h
  split at h
  next =>
    cases h
    rfl
  next =>
    dsimp only at h
    split at h
    next => cases h
    next => cases h

end Reload

/-! ## Runs -/

/-- What becomes of a cache, with the plates that the last successful replacement or reload
took and with their time: the clock's reading for a replacement, and for a reload the time of the
file, unless the one before is later.  A replacement may raise at any of its calls but the last,
and another program may put another file in place. -/
inductive Reaches : State → Option (List String) → Option DateTime → Prop where
  | created (csv : Option (List UInt8)) : Reaches (fresh csv) none none
  | replaced {env plates fails s s' latest taken} (h : Reaches s latest taken)
      (hrun : replace env plates fails s = (.ok (), s')) :
      Reaches s' (some (normalized plates)) (some env.now)
  | refused {env plates fails s s' latest taken x} (h : Reaches s latest taken)
      (hrun : replace env plates fails s = (.error x, s')) (hstat : fails .stat = false) :
      Reaches s' latest taken
  | reloaded {reading version refreshed modifiedAt s s' latest taken} (h : Reaches s latest taken)
      (hrun : reloadLocal reading s = (.ok true, s'))
      (hread : readLocal reading s.csv = .ok (version, refreshed))
      (hmodified : reading.modifiedAt = .ok modifiedAt) :
      Reaches s' (some refreshed) (some (laterTime modifiedAt taken))
  | kept {reading s s' latest taken} (h : Reaches s latest taken)
      (hrun : reloadLocal reading s = (.ok false, s')) : Reaches s' latest taken
  | refreshError {s latest taken} (h : Reaches s latest taken) (message : String) :
      Reaches { s with lastError := some message } latest taken
  | external {s latest taken} (h : Reaches s latest taken) (csv : Option (List UInt8)) :
      Reaches { s with csv } latest taken

/-- The plates that were taken last are held, with their time. -/
theorem Reaches.held {s : State} {latest : Option (List String)} {taken : Option DateTime}
    (h : Reaches s latest taken) :
    s.plates = latest ∧ s.refreshedAt = taken ∧ (latest ≠ none → taken ≠ none) := by
  induction h with
  | created csv => exact ⟨rfl, rfl, fun h => absurd rfl h⟩
  | replaced h hrun ih =>
      obtain ⟨⟨-, hplates⟩, hrefreshed⟩ := replace_ok hrun
      exact ⟨hplates, hrefreshed, fun _ => Option.some_ne_none _⟩
  | refused h hrun hstat ih =>
      obtain ⟨hplates, hrefreshed⟩ := Prod.mk.inj (replace_error hstat hrun)
      rw [hplates, hrefreshed]
      exact ih
  | reloaded h hrun hread hmodified ih =>
      obtain ⟨version, refreshed, modifiedAt, hread', hmodified', hplates, hrefreshed⟩ :=
        reloadLocal_true hrun
      cases hread.symm.trans hread'
      cases hmodified.symm.trans hmodified'
      exact ⟨hplates, by rw [hrefreshed, ih.2.1], fun _ => Option.some_ne_none _⟩
  | kept h hrun ih =>
      obtain ⟨hplates, hrefreshed⟩ := Prod.mk.inj (reloadLocal_false hrun)
      rw [hplates, hrefreshed]
      exact ih
  | refreshError h message ih => exact ih
  | external h csv ih => exact ih

/-- The age of a snapshot, if its time can be compared with the clock. -/
def age (now refreshedAt : DateTime) : Option Int :=
  if now.offset.isNone = refreshedAt.offset.isNone then
    some (now.utc.val - refreshedAt.utc.val)
  else none

/-- A snapshot that is not stale has an age within the bounds. -/
theorem age_of_not_stale {now refreshedAt : DateTime} {maxStaleness : Int}
    (h : snapshotIsStale now refreshedAt maxStaleness = false) :
    ∃ a, age now refreshedAt = some a ∧ 0 ≤ a ∧ a ≤ maxStaleness := by
  unfold snapshotIsStale at h
  split at h
  next => cases h
  next hsame =>
    refine ⟨_, if_pos (by simpa using hsame), ?_⟩
    simp only [Bool.or_eq_false_iff, decide_eq_false_iff_not] at h
    omega

/-- What `get` returns is of an age within the bounds. -/
theorem age_of_get {maxStaleness : Int} {now refreshedAt : DateTime} {plates : List String}
    {s : State} (hrefreshed : s.refreshedAt = some refreshedAt)
    (h : getPlates (some maxStaleness) now s = .ok plates) :
    ∃ a, age now refreshedAt = some a ∧ 0 ≤ a ∧ a ≤ maxStaleness := by
  unfold getPlates at h
  rw [hrefreshed] at h
  split at h
  next => cases h
  next =>
    dsimp only at h
    split at h
    next => cases h
    next hfresh => exact age_of_not_stale (by simpa using hfresh)

/-- The plates decide alike, for the readings of a burst and for the last look at the plates
before the relay is switched. -/
def SameAnswers (before after : List String) : Prop :=
  (∀ observations, decideAccess observations after = decideAccess observations before) ∧
  ∀ plate, normalisePlate plate ∈ after.map normalisePlate ↔
    normalisePlate plate ∈ before.map normalisePlate

/-- A replacement that returns holds the sorted plates, and any cache that reads its file back
holds the same ones, if none of them is longer than a field may be.  In every run `get` returns
the plates that were taken last, and only while their age is within the bounds: the age is
counted from the time at which they were taken. -/
theorem restart_keeps_plates :
    (∀ (env : Surroundings) (fails : Call → Bool) (plates : List String) (s s' : State),
      replace env plates fails s = (.ok (), s') →
      (∀ plate ∈ normalized plates, plate.toList.length ≤ Csv.fieldSizeLimit) →
      s'.plates = some (normalized plates) ∧
      (normalized plates).Perm ((plates.map normalisePlate).filter (· != "")) ∧
      (normalized plates).Pairwise (· ≤ ·) ∧
      ∀ (reading : Reading) (t : State), t.csv = s'.csv → Quiet reading t →
        ∃ t' after, reloadLocal reading t = (.ok true, t') ∧ t'.plates = some after ∧
          after = normalized plates ∧ SameAnswers (normalized plates) after) ∧
    ∀ (s : State) (latest : Option (List String)) (taken : Option DateTime),
      Reaches s latest taken →
      ∀ (maxStaleness : Option Int) (now : DateTime) (plates : List String),
        getPlates maxStaleness now s = .ok plates → latest = some plates ∧
          ∃ refreshedAt, taken = some refreshedAt ∧ s.refreshedAt = some refreshedAt ∧
            ∀ bound, maxStaleness = some bound →
              ∃ a, age now refreshedAt = some a ∧ 0 ≤ a ∧ a ≤ bound := by
  refine ⟨fun env fails plates s s' hrun hfits => ?_,
    fun s latest taken h maxStaleness now plates hget => ?_⟩
  · obtain ⟨⟨hcsv, hplates⟩, -⟩ := replace_ok hrun
    refine ⟨hplates, List.perm_insertionSort _ _, List.pairwise_insertionSort _ _, ?_⟩
    intro reading t hsame hquiet
    obtain ⟨t', hreload, hafter⟩ := reloadLocal_of_quiet hquiet (hsame.trans hcsv) hfits
    exact ⟨t', _, hreload, hafter, rfl, fun _ => rfl, fun _ => Iff.rfl⟩
  · obtain ⟨hplates, hrefreshed, htime⟩ := h.held
    rw [plates_of_get hget] at hplates
    refine ⟨hplates.symm, ?_⟩
    obtain ⟨refreshedAt, rfl⟩ := Option.ne_none_iff_exists'.1 (htime (by simp [← hplates]))
    refine ⟨refreshedAt, rfl, hrefreshed, ?_⟩
    rintro bound rfl
    exact age_of_get hrefreshed hget

theorem instants_pos : 0 < instants := by decide

/-- A reading of a file that is not disturbed. -/
def quietReading : Reading where
  first := .ok ⟨2, 7, 0⟩
  second := .ok ⟨2, 7, 0⟩
  modifiedAt := .ok ⟨0, instants_pos⟩

theorem quiet_fresh (csv : Option (List UInt8)) : Quiet quietReading (fresh csv) where
  still := ⟨_, rfl, rfl⟩
  readable := rfl
  dated := ⟨_, rfl⟩
  aware _ h := (by cases h)

/-- Twenty microseconds after the time of the file. -/
def shortlyAfter : DateTime := ⟨⟨20, by decide⟩, some 0⟩

/-- Two plates, written in small letters, and a restart.  The new instance has the plates of
the file and its time, and returns them while they are at most thirty microseconds old. -/
theorem restart_keeps_plates_two :
    ∃ s' t', replace Revoked.surroundings ["xy 9", "ab-12"] (fun _ => false) Revoked.authorised =
        (.ok (), s') ∧
      reloadLocal quietReading (fresh s'.csv) = (.ok true, t') ∧
      s'.plates = some ["AB12", "XY9"] ∧ t'.plates = some ["AB12", "XY9"] ∧
      Reaches t' (some ["AB12", "XY9"]) (some ⟨⟨0, instants_pos⟩, some 0⟩) ∧
      getPlates (some 30) shortlyAfter t' = .ok ["AB12", "XY9"] ∧
      ∃ a, age shortlyAfter ⟨⟨0, instants_pos⟩, some 0⟩ = some a ∧ 0 ≤ a ∧ a ≤ 30 := by
  have hnormal : normalized ["xy 9", "ab-12"] = ["AB12", "XY9"] := by decide +kernel
  obtain ⟨s', hrun⟩ := replace_of_not_failing Revoked.surroundings
    ["xy 9", "ab-12"] Revoked.authorised fun _ => rfl
  obtain ⟨hplates, -, -, hrestart⟩ := restart_keeps_plates.1 _ _ _ _ _ hrun (by decide +kernel)
  obtain ⟨t', after, hreload, hafter, rfl, -⟩ :=
    hrestart quietReading (fresh s'.csv) rfl (quiet_fresh s'.csv)
  rw [hnormal] at hplates hafter
  obtain ⟨version, refreshed, modifiedAt, hread, hmodified, htaken, htime⟩ :=
    reloadLocal_true hreload
  cases hmodified
  cases hafter.symm.trans htaken
  have hreaches : Reaches t' (some ["AB12", "XY9"]) (some ⟨⟨0, instants_pos⟩, some 0⟩) :=
    .reloaded (.created s'.csv) hreload hread rfl
  have hget : getPlates (some 30) shortlyAfter t' = .ok ["AB12", "XY9"] := by
    rw [getPlates, hafter, htime]
    rfl
  obtain ⟨-, refreshedAt, heq, -, hage⟩ :=
    restart_keeps_plates.2 t' _ _ hreaches (some 30) shortlyAfter _ hget
  cases heq
  exact ⟨s', t', hrun, hreload, hplates, hafter, hreaches, hget, hage 30 rfl⟩

/-! ## A plate that is too long -/

/-- One character more than a field may have. -/
def overlongPlate : String := String.ofList (List.replicate (Csv.fieldSizeLimit + 1) 'A')

theorem normalized_overlongPlate : normalized [overlongPlate] = [overlongPlate] := by
  have hsame : normalisePlate overlongPlate = overlongPlate := by
    rw [normalisePlate, overlongPlate, String.toList_ofList]
    refine congrArg String.ofList ?_
    generalize Csv.fieldSizeLimit + 1 = n
    induction n with
    | zero => rfl
    | succ n ih =>
        rw [List.replicate_succ, List.flatMap_cons, ih]
        rfl
  have hne : (overlongPlate != "") = true := by
    rw [bne_iff_ne]
    intro hempty
    have hlist := congrArg String.toList hempty
    rw [overlongPlate, String.toList_ofList, List.replicate_succ] at hlist
    cases hlist
  have hkept : [overlongPlate].filter (· != "") = [overlongPlate] :=
    List.filter_eq_self.2 fun plate hplate => List.mem_singleton.1 hplate ▸ hne
  rw [normalized, List.map_cons, List.map_nil, hsame, hkept]
  rfl

theorem platesOfText_overlongPlate :
    platesOfText (csvText [overlongPlate]) = .error "field larger than field limit (131072)" := by
  have hplain : ∀ c ∈ overlongPlate.toList, Csv.plain c = true := by
    intro c hc
    rw [overlongPlate, String.toList_ofList] at hc
    rw [List.eq_of_mem_replicate hc]
    decide
  have hheading : ∀ c ∈ "plate".toList, Csv.plain c = true := List.all_eq_true.1 (by decide)
  have hplates : ∀ plate ∈ [overlongPlate], ∀ c ∈ plate.toList, Csv.plain c = true := by
    intro plate hplate
    rw [List.mem_singleton.1 hplate]
    exact hplain
  have hfields : ∀ field ∈ ["plate", overlongPlate].map String.toList,
      ∀ c ∈ field, Csv.plain c = true := by
    intro field hfield
    obtain ⟨text, htext, rfl⟩ := List.mem_map.1 hfield
    rcases List.mem_cons.1 htext with rfl | htext
    · exact hheading
    · exact hplates text htext
  have hread : Csv.read (csvText [overlongPlate]) =
      .error "field larger than field limit (131072)" := by
    rw [Csv.read, csvText_eq hplates, Csv.lines_flatMap hfields, List.map_cons,
      List.map_cons, List.map_cons, List.map_cons,
      Csv.readLines_lineOf hheading (by decide) (by decide),
      Csv.readLines_overlong hplain (by simp [overlongPlate])]
    rfl
  rw [platesOfText, hread]
  rfl

/-- It is written, and nothing is read after a restart. -/
theorem overlong_plate_lost :
    ¬ ∀ (env : Surroundings) (fails : Call → Bool) (plates : List String) (s s' : State),
      replace env plates fails s = (.ok (), s') →
      ∀ (reading : Reading) (t : State), t.csv = s'.csv → Quiet reading t →
        ∃ t', reloadLocal reading t = (.ok true, t') ∧ t'.plates = s'.plates := by
  intro h
  obtain ⟨s', hrun⟩ := replace_of_not_failing Revoked.surroundings
    [overlongPlate] Revoked.authorised fun _ => rfl
  obtain ⟨t', hreload, -⟩ := h _ _ _ _ _ hrun quietReading (fresh s'.csv) rfl (quiet_fresh _)
  obtain ⟨version, refreshed, -, hread, -⟩ := reloadLocal_true hreload
  obtain ⟨⟨hcsv, -⟩, -⟩ := replace_ok hrun
  rw [csvBytes, normalized_overlongPlate] at hcsv
  obtain ⟨version', hread'⟩ := readLocal_of_quiet (quiet_fresh s'.csv) hcsv
  rw [platesOfText_overlongPlate] at hread'
  cases hread.symm.trans hread'

end AuthorisedPlateCache

end GateController
