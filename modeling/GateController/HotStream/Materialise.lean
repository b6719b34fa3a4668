import GateController.HotStream.Ring
import GateController.Data.Files
import GateController.Effects.Fallible

/-!
# Materialising hot frames

`materialise` writes the frames that it selects to files of new names, one after the other.
If a call raises, it removes the files that are done and raises.

A file counts as done when it is closed.  The file that is being written when a call fails is
not removed, and stays behind with a part of its frame, or with all of it.
`materialise_allOrNothing_iff` says that this is the only case in which something stays.
-/

namespace GateController

open Data Effects

namespace HotFrameRing

/-- The calls that make the file of a frame.  A write that returns nothing counts as
failed, since the code raises then. -/
inductive OutputCall where
  | create (frame : Nat)
  | fchmod (frame : Nat)
  | write (frame part : Nat)
  | close (frame : Nat)
deriving DecidableEq

/-- What `materialise` raises. -/
inductive OutputError where
  | os
  | fileExists
  | valueError (message : String)
deriving DecidableEq

/-- What stands at the path of the output directory. -/
structure PathMetadata where
  /-- `is_dir`, which follows a link. -/
  isDir : Bool
  /-- `S_ISDIR` of the path itself. -/
  isDirectory : Bool
  isSymlink : Bool
  /-- The owner is the process. -/
  owned : Bool
  mode : Nat
deriving DecidableEq

/-- The ring, the output directory, and the files that `materialise` has done. -/
structure OutputScene (Time Digest : Type) where
  ring : HotFrameRing Time Digest
  /-- The parent of the output directory exists. -/
  parent : Bool
  directory : Option PathMetadata
  files : Files Bytes
  paths : List String := []

/-- What is left open: the token of each file, and the sizes of the partial writes. -/
structure OutputRun where
  tokenHex : Nat → String
  chunk : Nat → Nat → Nat

variable {Time Digest : Type}

/-- A computation of `materialise`. -/
abbrev Output (Time Digest α : Type) : Type :=
  Fallible OutputCall (OutputScene Time Digest) OutputError α

/-- `_ensure_private_directory`. -/
def ensurePrivateDirectory : Output Time Digest Unit := do
  let s ← Fallible.get
  match s.directory with
  | none =>
      -- A directory that the process makes is its own.
      if s.parent then
        Fallible.modify fun s => { s with directory := some ⟨true, true, false, true, 0o700⟩ }
      else Fallible.raise (.valueError "hot stream output parent is missing")
  | some metadata =>
      if !metadata.isDir then Fallible.raise .fileExists
      else if !metadata.isDirectory || metadata.isSymlink || !metadata.owned ||
          metadata.mode &&& 0o077 != 0 then
        Fallible.raise (.valueError "hot stream output directory must be owner-only")
      else pure ()

/-- The name of the file of a frame. -/
def target (run : OutputRun) (k : Nat) : String := "frame-" ++ run.tokenHex k ++ ".jpg"

/-- Bytes are written to a file. -/
def appendTo (name : String) (part : Bytes) (s : OutputScene Time Digest) :
    OutputScene Time Digest :=
  { s with files := s.files.modify name fun data => data ++ part }

/-- The descriptor of a frame is open: its mode is set and its bytes are written. -/
def fillFrame (run : OutputRun) (k : Nat) (frame : Bytes) : Output Time Digest Unit := do
  Fallible.call (.fchmod k) .os id
  Fallible.writeAll (.write k) .os (run.chunk k) (appendTo (target run k)) 0 frame

/-- The body of the loop. -/
def writeFrame (run : OutputRun) (k : Nat) (frame : Bytes) : Output Time Digest Unit := do
  let s ← Fallible.get
  if (s.files (target run k)).isSome then Fallible.raise .fileExists
  else
    Fallible.call (.create k) .os fun s => { s with files := s.files.put (target run k) [] }
    (fillFrame run k frame).finally_ (Fallible.call (.close k) .os id)
    Fallible.modify fun s => { s with paths := s.paths ++ [target run k] }

/-- The loop, from the `k`-th frame on. -/
def writeFrames (run : OutputRun) : Nat → List Bytes → Output Time Digest Unit
  | _, [] => pure ()
  | k, frame :: frames => do
      writeFrame run k frame
      writeFrames run (k + 1) frames

/-- The files of some paths are removed. -/
def unlinkAll (paths : List String) (files : Files Bytes) : Files Bytes :=
  paths.foldl (fun files path => files.remove path) files

/-- The end of `materialise`: its return, or its handler. -/
def conclude : Except OutputError Unit → Output Time Digest (List String)
  | .ok () => do
      let s ← Fallible.get
      return s.paths
  | .error x => do
      Fallible.modify fun s => { s with files := unlinkAll s.paths s.files }
      Fallible.raise x

section Materialise

variable [LE Time] [DecidableLE Time] [Sub Time] [Zero Time]

/-- `materialise`. -/
def materialise (run : OutputRun) (count : Int) (now maxAge : Time) :
    Output Time Digest (List String) := do
  let s ← Fallible.get
  let frames := s.ring.select count now maxAge
  if frames = [] then return []
  else
    ensurePrivateDirectory
    Fallible.modify fun s => { s with paths := [] }
    conclude (← (writeFrames run 0 frames).attempt)

end Materialise

/-! ## What is asked -/

/-- Over some files the files of some frames were made, in order and nothing else. -/
structure Made (base : Files Bytes) (frames : List Bytes) (files : Files Bytes)
    (paths : List String) : Prop where
  holds : List.Forall₂ (fun path frame => files path = some frame) paths frames
  distinct : paths.Nodup
  new : ∀ path ∈ paths, base path = none
  others : ∀ path, path ∉ paths → files path = base path

/-- A run that returns has made one file of each frame, and one that raises has left no file.
Neither changes the ring. -/
structure AllOrNothing (frames : List Bytes) (s : OutputScene Time Digest)
    (r : Except OutputError (List String)) (s' : OutputScene Time Digest) : Prop where
  all : ∀ paths, r = .ok paths → Made s.files frames s'.files paths
  nothing : ∀ x, r = .error x → s'.files = s.files
  ring : s'.ring = s.ring

/-- The directory may be used. -/
def Usable (s : OutputScene Time Digest) : Prop :=
  match s.directory with
  | none => s.parent = true
  | some metadata => metadata.isDir = true ∧ metadata.isDirectory = true ∧
      metadata.isSymlink = false ∧ metadata.owned = true ∧ metadata.mode &&& 0o077 = 0

/-- The failing call is one that fails while the file of a frame is open. -/
def Hits (run : OutputRun) (failing : Option OutputCall) (k : Nat) (frame : Bytes) : Prop :=
  failing = some (.fchmod k) ∨ failing = some (.close k) ∨
    ∃ part, failing = some (.write k part) ∧ Fallible.Due (run.chunk k) 0 frame part

/-- From the `k`-th frame on the loop comes to a frame whose file is open when the call fails:
the names up to it are free. -/
def Spoils (run : OutputRun) (failing : Option OutputCall) (k : Nat) (frames : List Bytes)
    (files : Files Bytes) : Prop :=
  ∃ n frame, frames[n]? = some frame ∧ Hits run failing (k + n) frame ∧
    ∀ j ≤ n, files (target run (k + j)) = none ∧
      ∀ i < j, target run (k + i) ≠ target run (k + j)

/-! ## Files that were made -/

section Made

variable {base files : Files Bytes} {frames : List Bytes} {paths : List String} {name : String}

theorem made_nil (base : Files Bytes) : Made base [] base [] where
  holds := .nil
  distinct := .nil
  new _ h := absurd h List.not_mem_nil
  others _ _ := rfl

/-- A file that was made is there. -/
theorem Made.exists_frame (h : Made base frames files paths) :
    ∀ path ∈ paths, ∃ frame, files path = some frame := by
  have hholds := h.holds
  clear h
  induction hholds with
  | nil => exact fun _ hmem => absurd hmem List.not_mem_nil
  | cons hheld hrest ih =>
      intro path hmem
      obtain rfl | hmem := List.mem_cons.1 hmem
      · exact ⟨_, hheld⟩
      · exact ih path hmem

/-- A free name is not among the paths. -/
theorem Made.not_mem (h : Made base frames files paths) (hfree : files name = none) :
    name ∉ paths := by
  intro hmem
  obtain ⟨frame, hheld⟩ := h.exists_frame name hmem
  rw [hfree] at hheld
  cases hheld

/-- One file more. -/
theorem Made.put (h : Made base frames files paths) (hfree : files name = none) (frame : Bytes) :
    Made base (frames ++ [frame]) (files.put name frame) (paths ++ [name]) where
  holds := by
    refine List.rel_append ?_ (.cons (Files.put_self frame) .nil)
    have hne : ∀ path ∈ paths, path ≠ name := by
      rintro path hpath rfl
      exact h.not_mem hfree hpath
    refine List.Forall₂.imp (fun path frame' hboth => ?_)
      ((List.forall₂_and_left _ _).2 ⟨hne, h.holds⟩)
    rw [Files.put_of_ne hboth.1, hboth.2]
  distinct := by
    rw [List.nodup_append]
    refine ⟨h.distinct, List.nodup_singleton _, ?_⟩
    rintro path hpath _ hname rfl
    exact h.not_mem hfree (List.mem_singleton.1 hname ▸ hpath)
  new path hpath := by
    obtain hpath | hpath := List.mem_append.1 hpath
    · exact h.new path hpath
    · rw [List.mem_singleton.1 hpath, ← h.others name (h.not_mem hfree), hfree]
  others path hpath := by
    rw [List.mem_append, not_or, List.mem_singleton] at hpath
    rw [Files.put_of_ne hpath.2]
    exact h.others path hpath.1

theorem unlinkAll_apply (paths : List String) (files : Files Bytes) (name : String) :
    unlinkAll paths files name = if name ∈ paths then none else files name := by
  induction paths generalizing files with
  | nil => rfl
  | cons path paths ih =>
      rw [unlinkAll, List.foldl_cons]
      refine (ih _).trans ?_
      by_cases hname : name = path
      · subst hname
        simp
      · rw [Files.remove_of_ne hname]
        simp [hname]

/-- Without them the files are as they were. -/
theorem Made.unlink (h : Made base frames files paths) : unlinkAll paths files = base := by
  funext name
  rw [unlinkAll_apply]
  split
  next hmem => exact (h.new name hmem).symm
  next hmem => exact h.others name hmem

/-- A file that is not among them stays. -/
theorem Made.unlink_ne (h : Made base frames files paths) (hfree : files name = none)
    (part : Bytes) : unlinkAll paths (files.put name part) ≠ base := by
  intro heq
  have hnot := h.not_mem hfree
  have hname := congrFun heq name
  rw [unlinkAll_apply, if_neg hnot, Files.put_self, ← h.others name hnot, hfree] at hname
  cases hname

end Made

/-! ## The loop -/

section Loop

variable {run : OutputRun} {failing : Option OutputCall} {k : Nat} {frame : Bytes}
  {frames : List Bytes} {s s' : OutputScene Time Digest}

theorem call_ok {l : OutputCall} {f : OutputScene Time Digest → OutputScene Time Digest}
    (h : failing ≠ some l) :
    Fallible.call l OutputError.os f (Fallible.single failing) s = (.ok (), f s) :=
  Fallible.call_of_not (by simp [Fallible.single, h])

theorem call_fails {l : OutputCall} {f : OutputScene Time Digest → OutputScene Time Digest}
    (h : failing = some l) :
    Fallible.call l OutputError.os f (Fallible.single failing) s = (.error .os, s) :=
  Fallible.call_of_fails (by simp [Fallible.single, h])

/-- The file of a frame. -/
def withFile (run : OutputRun) (k : Nat) (data : Bytes) (s : OutputScene Time Digest) :
    OutputScene Time Digest :=
  { s with files := s.files.put (target run k) data }

@[simp] theorem appendTo_withFile (data part : Bytes) :
    appendTo (target run k) part (withFile run k data s) = withFile run k (data ++ part) s := by
  simp [appendTo, withFile]

theorem appendTo_nil (name : String) (s : OutputScene Time Digest) : appendTo name [] s = s := by
  have hid : (fun data : Bytes => data ++ []) = id := by
    funext data
    exact List.append_nil data
  rw [appendTo, hid, Files.modify_id]

theorem appendTo_appendTo (name : String) (a b : Bytes) (s : OutputScene Time Digest) :
    appendTo name b (appendTo name a s) = appendTo name (a ++ b) s := by
  simp only [appendTo, Files.modify_modify]
  congr 2
  funext data
  exact List.append_assoc data a b

/-- While a file is open: it is filled, or the failing call is the one to set its mode or one
of those to write it. -/
theorem fillFrame_cases (run : OutputRun) (failing : Option OutputCall) (k : Nat) (frame : Bytes)
    (s : OutputScene Time Digest) :
    (failing ≠ some (.fchmod k) ∧
      (∀ part, Fallible.Due (run.chunk k) 0 frame part → failing ≠ some (.write k part)) ∧
      fillFrame run k frame (Fallible.single failing) (withFile run k [] s) =
        (.ok (), withFile run k frame s)) ∨
    ∃ data, failing ≠ some (.close k) ∧ Hits run failing k frame ∧
      fillFrame run k frame (Fallible.single failing) (withFile run k [] s) =
        (.error .os, withFile run k data s) := by
  rw [fillFrame]
  by_cases hfchmod : failing = some (.fchmod k)
  · rw [Fallible.bind_of_error (call_fails hfchmod)]
    exact .inr ⟨[], by simp [hfchmod], .inl hfchmod, rfl⟩
  rw [Fallible.bind_of_ok (call_ok hfchmod)]
  have hiff := @Fallible.writeAll_ok_iff _ _ _ (OutputCall.write k) OutputError.os (run.chunk k)
    (appendTo (target run k)) (Fallible.single failing) 0 frame (withFile run k [] s)
  obtain hwrite | ⟨j, part, hj, hwrite⟩ := @Fallible.writeAll_cases _ _ _ (OutputCall.write k)
    OutputError.os (run.chunk k) (appendTo (target run k)) (appendTo_nil _)
    (fun a b s => appendTo_appendTo _ a b s) (Fallible.single failing) 0 frame
    (withFile run k [] s)
  · refine .inl ⟨hfchmod, fun part hdue => ?_, ?_⟩
    · rw [hwrite] at hiff
      simpa [Fallible.single] using hiff.1 rfl part hdue
    · rw [id, hwrite, appendTo_withFile, List.nil_append]
  · have hdue : ∃ part, failing = some (.write k part) ∧
        Fallible.Due (run.chunk k) 0 frame part := by
      by_contra hno
      have hok := hiff.2 fun part hdue => ?_
      · rw [hwrite] at hok
        cases hok
      · by_contra hfails
        exact hno ⟨part, by simpa [Fallible.single] using hfails, hdue⟩
    obtain ⟨part', hpart', hdue'⟩ := hdue
    refine .inr ⟨part, by simp [hpart'], .inr (.inr ⟨part', hpart', hdue'⟩), ?_⟩
    rw [id, hwrite, appendTo_withFile, List.nil_append]

/-- How the body of the loop ends. -/
inductive FrameEnds (run : OutputRun) (failing : Option OutputCall) (k : Nat) (frame : Bytes)
    (s : OutputScene Time Digest) : Except OutputError Unit → OutputScene Time Digest → Prop where
  /-- The file is done. -/
  | done (hfree : s.files (target run k) = none) (hhits : ¬ Hits run failing k frame) :
      FrameEnds run failing k frame s (.ok ())
        { withFile run k frame s with paths := s.paths ++ [target run k] }
  /-- There is no file. -/
  | refused (x : OutputError)
      (h : s.files (target run k) ≠ none ∨ failing = some (.create k)) :
      FrameEnds run failing k frame s (.error x) s
  /-- The file stays. -/
  | stays (x : OutputError) (data : Bytes) (hfree : s.files (target run k) = none)
      (hhits : Hits run failing k frame) :
      FrameEnds run failing k frame s (.error x) (withFile run k data s)

theorem writeFrame_ends (run : OutputRun) (failing : Option OutputCall) (k : Nat) (frame : Bytes)
    (s : OutputScene Time Digest) : ∃ r s',
      writeFrame run k frame (Fallible.single failing) s = (r, s') ∧
      FrameEnds run failing k frame s r s' := by
  rw [writeFrame, Fallible.bind_of_ok Fallible.get_run]
  cases hfree : s.files (target run k) with
  | some data =>
      rw [Option.isSome_some, if_pos rfl]
      exact ⟨_, _, rfl, .refused _ (.inl (by simp [hfree]))⟩
  | none =>
      rw [Option.isSome_none, if_neg Bool.false_ne_true]
      by_cases hcreate : failing = some (.create k)
      · rw [Fallible.bind_of_error (call_fails hcreate)]
        exact ⟨_, _, rfl, .refused _ (.inr hcreate)⟩
      rw [Fallible.bind_of_ok (call_ok hcreate)]
      obtain ⟨hfchmod, hwrite, hfill⟩ | ⟨data, hclose, hhits, hfill⟩ :=
        fillFrame_cases run failing k frame s
      · by_cases hclose : failing = some (.close k)
        · have hfinal := Fallible.finally_of_error hfill (call_fails (f := id) hclose)
          exact ⟨_, _, Fallible.bind_of_error hfinal, .stays _ frame hfree (.inr (.inl hclose))⟩
        · have hfinal := Fallible.finally_of_ok hfill (call_ok (f := id) hclose)
          refine ⟨_, _, Fallible.bind_of_ok hfinal, .done hfree ?_⟩
          rintro (h | h | ⟨part, h, hdue⟩)
          · exact hfchmod h
          · exact hclose h
          · exact hwrite part hdue h
      · have hfinal := Fallible.finally_of_ok hfill (call_ok (f := id) hclose)
        exact ⟨_, _, Fallible.bind_of_error hfinal, .stays _ data hfree hhits⟩

/-- The loop comes to such a frame at once, or behind a file that is done. -/
theorem spoils_cons_iff {files : Files Bytes} :
    Spoils run failing k (frame :: frames) files ↔ files (target run k) = none ∧
      (Hits run failing k frame ∨
        Spoils run failing (k + 1) frames (files.put (target run k) frame)) := by
  have hshift : ∀ m, k + 1 + m = k + (m + 1) := by omega
  constructor
  · rintro ⟨n, frame', hget, hhits, hfree⟩
    refine ⟨(hfree 0 (Nat.zero_le n)).1, ?_⟩
    cases n with
    | zero =>
        cases hget
        exact .inl hhits
    | succ n =>
        refine .inr ⟨n, frame', hget, hshift n ▸ hhits, fun j hj => ?_⟩
        obtain ⟨hnone, hne⟩ := hfree (j + 1) (Nat.succ_le_succ hj)
        have hother : target run (k + (j + 1)) ≠ target run k :=
          fun heq => hne 0 (Nat.succ_pos j) heq.symm
        rw [hshift j]
        refine ⟨(Files.put_of_ne hother frame).trans hnone, fun i hi => ?_⟩
        rw [hshift i]
        exact hne (i + 1) (Nat.succ_lt_succ hi)
  · rintro ⟨hnone, hhits | ⟨n, frame', hget, hhits, hfree⟩⟩
    · refine ⟨0, frame, rfl, hhits, fun j hj => ?_⟩
      obtain rfl := Nat.le_zero.1 hj
      exact ⟨hnone, fun i hi => absurd hi (Nat.not_lt_zero i)⟩
    · refine ⟨n + 1, frame', hget, hshift n ▸ hhits, fun j hj => ?_⟩
      cases j with
      | zero => exact ⟨hnone, fun i hi => absurd hi (Nat.not_lt_zero i)⟩
      | succ j =>
          obtain ⟨hput, hne⟩ := hfree j (Nat.le_of_succ_le_succ hj)
          rw [hshift j] at hput hne
          have hother : target run (k + (j + 1)) ≠ target run k := by
            intro heq
            rw [heq, Files.put_self] at hput
            cases hput
          refine ⟨(Files.put_of_ne hother frame).symm.trans hput, fun i hi => ?_⟩
          cases i with
          | zero => exact hother.symm
          | succ i => exact hshift i ▸ hne i (Nat.lt_of_succ_lt_succ hi)

/-- How the loop ends. -/
inductive LoopEnds (base : Files Bytes) (frames : List Bytes) (spoiled : Prop)
    (s' : OutputScene Time Digest) : Except OutputError Unit → Prop where
  | all (h : Made base frames s'.files s'.paths) (hnot : ¬ spoiled) :
      LoopEnds base frames spoiled s' (.ok ())
  | part (x : OutputError) (done : List Bytes) (h : Made base done s'.files s'.paths)
      (hnot : ¬ spoiled) : LoopEnds base frames spoiled s' (.error x)
  | stays (x : OutputError) (done : List Bytes) (files : Files Bytes) (name : String)
      (data : Bytes) (h : Made base done files s'.paths) (hfree : files name = none)
      (hfiles : s'.files = files.put name data) (hspoiled : spoiled) :
      LoopEnds base frames spoiled s' (.error x)

theorem writeFrames_ends {base : Files Bytes} {done : List Bytes} (frames : List Bytes) (k : Nat)
    (s : OutputScene Time Digest) (h : Made base done s.files s.paths) : ∃ r s',
      writeFrames run k frames (Fallible.single failing) s = (r, s') ∧ s'.ring = s.ring ∧
      LoopEnds base (done ++ frames) (Spoils run failing k frames s.files) s' r := by
  induction frames generalizing k s done with
  | nil =>
      refine ⟨_, _, rfl, rfl, .all (by rwa [List.append_nil]) ?_⟩
      rintro ⟨n, frame, hget, -⟩
      cases hget
  | cons frame frames ih =>
      rw [writeFrames]
      obtain ⟨r, s₁, hframe, hends⟩ := writeFrame_ends run failing k frame s
      cases hends with
      | refused x hrefused =>
          refine ⟨_, _, Fallible.bind_of_error hframe, rfl, .part x done h ?_⟩
          rw [spoils_cons_iff]
          rintro ⟨hfree, hspoils⟩
          obtain hname | hcreate := hrefused
          · exact hname hfree
          · obtain (hfails | hfails | ⟨part, hfails, -⟩) | ⟨n, frame', -, hhits, -⟩ := hspoils
            · cases hcreate.symm.trans hfails
            · cases hcreate.symm.trans hfails
            · cases hcreate.symm.trans hfails
            · obtain hfails | hfails | ⟨part, hfails, -⟩ := hhits
              · cases hcreate.symm.trans hfails
              · cases hcreate.symm.trans hfails
              · cases hcreate.symm.trans hfails
      | stays x data hfree hhits =>
          refine ⟨_, _, Fallible.bind_of_error hframe, rfl,
            .stays x done s.files _ data h hfree rfl ?_⟩
          exact spoils_cons_iff.2 ⟨hfree, .inl hhits⟩
      | done hfree hhits =>
          have hmore := h.put hfree frame
          obtain ⟨r, s', hrun, hring, hends⟩ := ih (k + 1)
            { withFile run k frame s with paths := s.paths ++ [target run k] } hmore
          refine ⟨r, s', (Fallible.bind_of_ok hframe).trans hrun, hring, ?_⟩
          have hiff : Spoils run failing k (frame :: frames) s.files ↔
              Spoils run failing (k + 1) frames (withFile run k frame s).files := by
            rw [spoils_cons_iff]
            exact ⟨fun hspoils => hspoils.2.resolve_left hhits, fun hspoils =>
              ⟨hfree, .inr hspoils⟩⟩
          rw [List.append_cons, hiff]
          exact hends

end Loop

/-! ## All or nothing -/

/-- The directory may be used, or the code raises and changes nothing. -/
theorem ensurePrivateDirectory_cases (fails : OutputCall → Bool) (s : OutputScene Time Digest) :
    (Usable s ∧ ∃ directory,
      ensurePrivateDirectory fails s = (.ok (), { s with directory := directory })) ∨
    (¬ Usable s ∧ ∃ x, ensurePrivateDirectory fails s = (.error x, s)) := by
  obtain ⟨ring, parent, directory, files, paths⟩ := s
  rw [ensurePrivateDirectory, Fallible.bind_of_ok Fallible.get_run, Usable]
  cases directory with
  | none =>
      cases parent with
      | true => exact .inl ⟨rfl, _, rfl⟩
      | false => exact .inr ⟨Bool.false_ne_true, _, rfl⟩
  | some metadata =>
      obtain ⟨isDir, isDirectory, isSymlink, owned, mode⟩ := metadata
      dsimp only
      cases isDir with
      | false => exact .inr ⟨fun h => Bool.false_ne_true h.1, _, rfl⟩
      | true =>
          rw [if_neg (by simp)]
          by_cases hbad : !isDirectory || isSymlink || !owned || mode &&& 0o077 != 0
          · rw [if_pos hbad]
            refine .inr ⟨fun h => ?_, _, rfl⟩
            obtain ⟨-, rfl, rfl, rfl, hmode⟩ := h
            simp [hmode] at hbad
          · rw [if_neg hbad]
            simp only [Bool.or_eq_true, Bool.not_eq_true', bne_iff_ne, not_or, Bool.not_eq_false,
              Bool.not_eq_true, not_not] at hbad
            exact .inl ⟨⟨rfl, hbad.1.1.1, hbad.1.1.2, hbad.1.2, hbad.2⟩, _, rfl⟩

theorem conclude_ok (fails : OutputCall → Bool) (s : OutputScene Time Digest) :
    conclude (.ok ()) fails s = (.ok s.paths, s) := rfl

theorem conclude_error (x : OutputError) (fails : OutputCall → Bool)
    (s : OutputScene Time Digest) :
    conclude (.error x) fails s = (.error x, { s with files := unlinkAll s.paths s.files }) := rfl

section AllOrNothing

variable [LE Time] [DecidableLE Time] [Sub Time] [Zero Time]

/-- Materialising makes all files or none, unless it comes to a frame for which the mode of the
file, a write or the close fails. -/
theorem materialise_allOrNothing_iff (run : OutputRun) (failing : Option OutputCall) (count : Int)
    (now maxAge : Time) (s : OutputScene Time Digest) :
    AllOrNothing (s.ring.select count now maxAge) s
        (materialise run count now maxAge (Fallible.single failing) s).1
        (materialise run count now maxAge (Fallible.single failing) s).2 ↔
      ¬ (Usable s ∧ Spoils run failing 0 (s.ring.select count now maxAge) s.files) := by
  generalize hframes : s.ring.select count now maxAge = frames
  rw [materialise, Fallible.bind_of_ok Fallible.get_run, hframes]
  by_cases hempty : frames = []
  · subst hempty
    rw [if_pos rfl, Fallible.pure_run]
    refine iff_of_true ⟨fun paths h => ?_, fun x h => (by cases h), rfl⟩ ?_
    · cases h
      exact made_nil s.files
    · rintro ⟨-, n, frame, hget, -⟩
      cases hget
  rw [if_neg hempty]
  obtain ⟨husable, directory, hensure⟩ | ⟨hnot, x, hensure⟩ :=
    ensurePrivateDirectory_cases (Fallible.single failing) s
  · rw [Fallible.bind_of_ok hensure, Fallible.bind_of_ok (Fallible.modify_run _)]
    obtain ⟨r, s', hrun, hring, hends⟩ := writeFrames_ends
      frames 0 { s with directory := directory, paths := [] } (made_nil s.files)
    have hattempt : ((writeFrames run 0 frames).attempt : Output Time Digest _)
        (Fallible.single failing) { s with directory := directory, paths := [] } = (.ok r, s') := by
      rw [Fallible.attempt_run, hrun]
    rw [Fallible.bind_of_ok hattempt]
    cases hends with
    | all h hnot =>
        rw [conclude_ok]
        refine iff_of_true ⟨fun paths heq => ?_, fun x heq => (by cases heq), hring⟩
          fun hspoils => hnot hspoils.2
        cases heq
        exact h
    | part x done h hnot =>
        rw [conclude_error]
        exact iff_of_true ⟨fun paths heq => (by cases heq), fun _ _ => h.unlink, hring⟩
          fun hspoils => hnot hspoils.2
    | stays x done files name data h hfree hfiles hspoiled =>
        rw [conclude_error]
        refine iff_of_false (fun hall => ?_) fun hno => hno ⟨husable, hspoiled⟩
        have hnothing := hall.nothing x rfl
        dsimp only at hnothing
        rw [hfiles] at hnothing
        exact h.unlink_ne hfree data hnothing
  · rw [Fallible.bind_of_error hensure]
    exact iff_of_true ⟨fun paths heq => (by cases heq), fun _ _ => rfl, rfl⟩
      fun hspoils => hnot hspoils.1

end AllOrNothing

/-- A ring with one frame, and a directory that is made. -/
def oneFrame : OutputScene Int Bytes :=
  { ring := { frames := [⟨0, [0xff], [0xff]⟩], totalBytes := 1 }, parent := true
    directory := none, files := fun _ => none }

/-- The mode of the file cannot be set, and the empty file stays. -/
theorem materialise_leaves_file :
    ¬ ∀ (run : OutputRun) (failing : Option OutputCall) (count : Int) (now maxAge : Int)
      (s : OutputScene Int Bytes),
      AllOrNothing (s.ring.select count now maxAge) s
        (materialise run count now maxAge (Fallible.single failing) s).1
        (materialise run count now maxAge (Fallible.single failing) s).2 := by
  intro h
  have hnothing := (h ⟨fun _ => "00", fun _ _ => 0⟩ (some (.fchmod 0)) 1 0 1 oneFrame).nothing .os
    rfl
  have hfile := congrFun hnothing "frame-00.jpg"
  cases hfile

end HotFrameRing

end GateController
