import GateController.Worker.Handler

/-!
# Start-up reconciliation

`StartupReconciler` walks the upload directory for files that were completed while the daemon
was offline.  It keeps a stack of directory iterators and can stop after any entry, so that the
main loop runs between two batches.

A directory tree does not change while it is walked, and an iterator is a snapshot of its
directory.  `run_batches` says what a run returns whatever the sizes of its batches are: the
state in which one batch ends that is large enough.
-/

namespace GateController

namespace StartupReconciler

variable {Time : Type}

/-! ## The directory -/

/-- An entry of a directory.  Only a directory itself is one, a link to it is a file. -/
inductive Entry (Time : Type) where
  /-- A name, and the time of the last change if `stat` does not raise. -/
  | file (name : String) (modified : Option Time)
  | directory (name : String) (entries : List (Entry Time))

/-- A file with a JPEG suffix, by the names on the way to it. -/
structure Upload (Time : Type) where
  path : List String
  modified : Option Time

mutual

/-- The uploads of an entry of the directory at `path`. -/
def Entry.uploads (path : List String) : Entry Time → List (Upload Time)
  | .file name modified => if isJpegName name then [⟨path ++ [name], modified⟩] else []
  | .directory name entries => uploadsAll (path ++ [name]) entries

/-- The uploads below some entries, in the order of the walk. -/
def uploadsAll (path : List String) : List (Entry Time) → List (Upload Time)
  | [] => []
  | entry :: entries => entry.uploads path ++ uploadsAll path entries

end

mutual

/-- How many entries there are, this one and those below it. -/
def Entry.size : Entry Time → Nat
  | .file _ _ => 1
  | .directory _ entries => sizeAll entries + 1

def sizeAll : List (Entry Time) → Nat
  | [] => 0
  | entry :: entries => entry.size + sizeAll entries

end

/-- The name of an entry. -/
def Entry.name : Entry Time → String
  | .file name _ => name
  | .directory name _ => name

mutual

/-- No two entries of one directory have one name. -/
def Entry.Distinct : Entry Time → Prop
  | .file _ _ => True
  | .directory _ entries => DistinctAll entries

def DistinctAll : List (Entry Time) → Prop
  | [] => True
  | entry :: entries =>
      entry.Distinct ∧ (∀ other ∈ entries, other.name ≠ entry.name) ∧ DistinctAll entries

end

/-! ## The reconciler -/

/-- A call to the outside that is about a file. -/
inductive Action where
  | scheduleCandidate (path : List String)
  | onSkipped (path : List String)
  | removeUpload (path : List String)
deriving DecidableEq

/-- The arguments of the reconciler.  `clock` has the readings in turn. -/
structure StartupConfig (Time : Type) where
  maxImageAge : Time
  /-- Whether there is an `on_skipped`. -/
  onSkipped : Bool
  clock : Nat → Time

/-- An iterator over a directory, and what it has not returned yet. -/
structure ScandirIterator (Time : Type) where
  id : Nat
  path : List String
  rest : List (Entry Time)

/-- The reconciler, and what it has done. -/
structure Reconciler (Time : Type) where
  /-- `_entries`, the last one first. -/
  entries : List (ScandirIterator Time)
  closed : Bool := false
  /-- How many iterators were made. -/
  scans : Nat
  /-- The iterators that were closed. -/
  ended : List Nat := []
  /-- How often the clock was read. -/
  readings : Nat := 0
  actions : List Action := []

/-- `__init__`. -/
def init (root : List (Entry Time)) : Reconciler Time :=
  { entries := [⟨0, [], root⟩], scans := 1 }

/-- `close`. -/
def close (s : Reconciler Time) : Reconciler Time :=
  if s.closed then s
  else { s with entries := [], ended := s.ended ++ s.entries.map (·.id), closed := true }

/-- The loop of `_next_entry`: the entry and the path of its directory, the stack, and the
iterators that were closed. -/
def advance : List (ScandirIterator Time) → List Nat →
    Option (List String × Entry Time) × List (ScandirIterator Time) × List Nat
  | [], ended => (none, [], ended)
  | ⟨id, _, []⟩ :: entries, ended => advance entries (ended ++ [id])
  | ⟨id, path, entry :: rest⟩ :: entries, ended =>
      (some (path, entry), ⟨id, path, rest⟩ :: entries, ended)

/-- `_next_entry`. -/
def nextEntry (s : Reconciler Time) : Option (List String × Entry Time) × Reconciler Time :=
  let r := advance s.entries s.ended
  let s := { s with entries := r.2.1, ended := r.2.2 }
  (r.1, if r.1.isNone then close s else s)

variable [LinearOrder Time] [Sub Time] [Zero Time]

/-- A file is too old, or its age is not known. -/
def stale (cfg : StartupConfig Time) (now : Time) : Option Time → Bool
  | none => true
  | some modified => decide (now - modified < 0 ∨ cfg.maxImageAge < now - modified)

/-- What `run_batch` does with an entry. -/
def inspect (cfg : StartupConfig Time) (path : List String) (s : Reconciler Time) :
    Entry Time → Reconciler Time
  | .directory name entries =>
      { s with entries := ⟨s.scans, path ++ [name], entries⟩ :: s.entries, scans := s.scans + 1 }
  | .file name modified =>
      if !isJpegName name then s
      else if stale cfg (cfg.clock s.readings) modified then
        { s with
          readings := s.readings + 1
          actions := s.actions ++ (if cfg.onSkipped then [.onSkipped (path ++ [name])] else []) ++
            [.removeUpload (path ++ [name])] }
      else
        { s with
          readings := s.readings + 1
          actions := s.actions ++ [.scheduleCandidate (path ++ [name])] }

/-- The loop of `run_batch`. -/
def batchLoop (cfg : StartupConfig Time) : Nat → Reconciler Time → Bool × Reconciler Time
  | 0, s => (true, s)
  | n + 1, s =>
      match nextEntry s with
      | (none, s) => (false, s)
      | (some (path, entry), s) => batchLoop cfg n (inspect cfg path s entry)

/-- `run_batch`. -/
def runBatch (cfg : StartupConfig Time) (maxEntries : Nat) (s : Reconciler Time) :
    Bool × Reconciler Time :=
  if s.closed then (false, s) else batchLoop cfg maxEntries s

/-- The reconciler after `n` calls of `run_batch`. -/
def afterBatches (cfg : StartupConfig Time) (sizes : Nat → Nat) : Nat → Reconciler Time →
    Reconciler Time
  | 0, s => s
  | n + 1, s => afterBatches cfg (fun i => sizes (i + 1)) n (runBatch cfg (sizes 0) s).2

/-! ## What is asked -/

/-- The age of an upload is within the bounds. -/
def Fresh (cfg : StartupConfig Time) (now : Time) (upload : Upload Time) : Prop :=
  ∃ modified, upload.modified = some modified ∧ 0 ≤ now - modified ∧
    now - modified ≤ cfg.maxImageAge

theorem fresh_iff_any {cfg : StartupConfig Time} {now : Time} {upload : Upload Time} :
    (upload.modified.any fun modified =>
      decide (0 ≤ now - modified ∧ now - modified ≤ cfg.maxImageAge)) = true ↔
    Fresh cfg now upload := by
  rw [Option.any_eq_true_iff_get, Fresh]
  simp only [decide_eq_true_eq]
  constructor
  · rintro ⟨hsome, hage⟩
    exact ⟨_, (Option.some_get hsome).symm, hage⟩
  · rintro ⟨modified, hmodified, hage⟩
    simp only [hmodified, Option.isSome_some, Option.get_some]
    exact ⟨trivial, hage⟩

instance (cfg : StartupConfig Time) (now : Time) (upload : Upload Time) :
    Decidable (Fresh cfg now upload) := decidable_of_iff _ fresh_iff_any

/-- A file that is young enough is scheduled, any other reported and removed. -/
def handling (cfg : StartupConfig Time) (now : Time) (upload : Upload Time) : List Action :=
  if Fresh cfg now upload then [.scheduleCandidate upload.path]
  else (if cfg.onSkipped then [.onSkipped upload.path] else []) ++ [.removeUpload upload.path]

/-- Each upload is handled once, in order, at the next reading of the clock. -/
def handlings (cfg : StartupConfig Time) (readings : Nat) : List (Upload Time) → List Action
  | [] => []
  | upload :: uploads =>
      handling cfg (cfg.clock readings) upload ++ handlings cfg (readings + 1) uploads

/-! ## What is left to do -/

/-- The uploads that the iterators have not come to. -/
def todo (entries : List (ScandirIterator Time)) : List (Upload Time) :=
  entries.flatMap fun scan => uploadsAll scan.path scan.rest

/-- How many entries are left. -/
def work (entries : List (ScandirIterator Time)) : Nat :=
  (entries.map fun scan => sizeAll scan.rest).sum

/-- What was done and what is left to do. -/
def total (cfg : StartupConfig Time) (s : Reconciler Time) : List Action :=
  s.actions ++ handlings cfg s.readings (todo s.entries)

section Stack

omit [LinearOrder Time] [Sub Time] [Zero Time]

theorem todo_cons (scan : ScandirIterator Time) (entries : List (ScandirIterator Time)) :
    todo (scan :: entries) = uploadsAll scan.path scan.rest ++ todo entries := List.flatMap_cons

theorem work_cons (scan : ScandirIterator Time) (entries : List (ScandirIterator Time)) :
    work (scan :: entries) = sizeAll scan.rest + work entries := List.sum_cons

/-- Every iterator that was made is on the stack or was closed, once. -/
def Accounted (s : Reconciler Time) : Prop :=
  (s.entries.map (·.id) ++ s.ended).Perm (List.range s.scans)

theorem accounted_init (root : List (Entry Time)) : Accounted (init root) := List.Perm.refl _

/-- How the loop of `_next_entry` ends. -/
theorem advance_cases (entries : List (ScandirIterator Time)) (ended : List Nat) :
    (∃ path entry entries' ended', advance entries ended = (some (path, entry), entries', ended') ∧
      todo entries = entry.uploads path ++ todo entries' ∧
      work entries = entry.size + work entries' ∧
      (entries.map (·.id) ++ ended).Perm (entries'.map (·.id) ++ ended')) ∨
    (∃ ended', advance entries ended = (none, [], ended') ∧ todo entries = [] ∧
      work entries = 0 ∧ (entries.map (·.id) ++ ended).Perm ended') := by
  induction entries generalizing ended with
  | nil => exact .inr ⟨ended, rfl, rfl, rfl, List.Perm.refl _⟩
  | cons scan entries ih =>
      obtain ⟨id, path, rest⟩ := scan
      cases rest with
      | cons entry rest =>
          refine .inl ⟨path, entry, _, ended, rfl, ?_, ?_, List.Perm.refl _⟩
          · rw [todo_cons, todo_cons, uploadsAll, List.append_assoc]
          · rw [work_cons, work_cons, sizeAll, Nat.add_assoc]
      | nil =>
          -- The iterator that is closed goes from the stack to the end of the list.
          have hclose : ((⟨id, path, []⟩ :: entries : List (ScandirIterator Time)).map (·.id) ++
              ended).Perm (entries.map (·.id) ++ (ended ++ [id])) := by
            rw [List.map_cons, List.cons_append, ← List.append_assoc]
            exact (List.perm_append_singleton id _).symm
          obtain ⟨path', entry, entries', ended', hadvance, htodo, hwork, hperm⟩ |
            ⟨ended', hadvance, htodo, hwork, hperm⟩ := ih (ended ++ [id])
          · refine .inl ⟨path', entry, entries', ended', hadvance, ?_, ?_, hclose.trans hperm⟩
            · rw [todo_cons, htodo]
              rfl
            · rw [work_cons, hwork]
              exact Nat.zero_add _
          · refine .inr ⟨ended', hadvance, ?_, ?_, hclose.trans hperm⟩
            · rw [todo_cons, htodo]
              rfl
            · rw [work_cons, hwork]
              rfl

end Stack

/-! ## One entry -/

theorem not_stale_iff {cfg : StartupConfig Time} {now : Time} {upload : Upload Time} :
    stale cfg now upload.modified = false ↔ Fresh cfg now upload := by
  obtain ⟨path, modified⟩ := upload
  cases modified with
  | none =>
      refine iff_of_false Bool.true_eq_false.mp ?_
      rintro ⟨modified, hmodified, -⟩
      cases hmodified
  | some modified =>
      simp only [stale, decide_eq_false_iff_not, not_or, not_lt]
      exact ⟨fun h => ⟨modified, rfl, h⟩, fun ⟨_, hmodified, h⟩ => Option.some.inj hmodified ▸ h⟩

theorem handling_eq (cfg : StartupConfig Time) (now : Time) (upload : Upload Time) :
    handling cfg now upload =
      if stale cfg now upload.modified then
        (if cfg.onSkipped then [.onSkipped upload.path] else []) ++ [.removeUpload upload.path]
      else [.scheduleCandidate upload.path] := by
  rw [handling]
  cases hstale : stale cfg now upload.modified with
  | true =>
      have hold : ¬ Fresh cfg now upload := by
        intro hfresh
        rw [not_stale_iff.2 hfresh] at hstale
        cases hstale
      rw [if_neg hold, if_pos rfl]
  | false => rw [if_pos (not_stale_iff.1 hstale), if_neg Bool.false_ne_true]

/-- An entry is inspected: what was done and what is left to do stay the same together. -/
theorem total_inspect (cfg : StartupConfig Time) (path : List String) (entry : Entry Time)
    (s : Reconciler Time) :
    total cfg (inspect cfg path s entry) =
      s.actions ++ handlings cfg s.readings (entry.uploads path ++ todo s.entries) := by
  cases entry with
  | directory name entries => rw [inspect, total, todo_cons, Entry.uploads]
  | file name modified =>
      cases hjpeg : isJpegName name with
      | false => simp [inspect, Entry.uploads, hjpeg, total]
      | true =>
          rw [Entry.uploads, if_pos hjpeg, List.singleton_append, handlings, handling_eq, inspect,
            hjpeg]
          cases hstale : stale cfg (cfg.clock s.readings) modified with
          | true => simp [total, List.append_assoc]
          | false => simp [total]

/-- A reconciler that goes on. -/
structure Running (cfg : StartupConfig Time) (all : List Action) (s : Reconciler Time) : Prop where
  opened : s.closed = false
  total : total cfg s = all
  accounted : Accounted s

/-- A reconciler that has come to the end. -/
structure Done (all : List Action) (s : Reconciler Time) : Prop where
  closed : s.closed = true
  entries : s.entries = []
  actions : s.actions = all
  ended : s.ended.Perm (List.range s.scans)

variable {cfg : StartupConfig Time} {all : List Action} {s : Reconciler Time}

theorem inspect_closed (cfg : StartupConfig Time) (path : List String) (entry : Entry Time)
    (s : Reconciler Time) : (inspect cfg path s entry).closed = s.closed := by
  unfold inspect
  split
  next => rfl
  next =>
    split
    next => rfl
    next => split <;> rfl

theorem accounted_inspect (cfg : StartupConfig Time) (path : List String) (entry : Entry Time)
    (h : Accounted s) : Accounted (inspect cfg path s entry) := by
  cases entry with
  | directory name entries =>
      rw [Accounted, inspect, List.map_cons, List.cons_append, List.range_succ]
      exact (List.Perm.cons _ h).trans (List.perm_append_singleton _ _).symm
  | file name modified =>
      rw [Accounted, inspect]
      split
      next => exact h
      next => split <;> exact h

theorem work_inspect (cfg : StartupConfig Time) (path : List String) (entry : Entry Time)
    (s : Reconciler Time) :
    work (inspect cfg path s entry).entries + 1 = entry.size + work s.entries := by
  cases entry with
  | directory name entries =>
      rw [inspect, work_cons, Entry.size]
      dsimp only
      omega
  | file name modified =>
      have hsame : (inspect cfg path s (.file name modified)).entries = s.entries := by
        rw [inspect]
        split
        next => rfl
        next => split <;> rfl
      rw [hsame, Entry.size, Nat.add_comm]

/-- The next entry is inspected, or there is none and the reconciler is closed. -/
theorem nextEntry_cases (h : Running cfg all s) :
    (∃ path entry s', nextEntry s = (some (path, entry), s') ∧
      Running cfg all (inspect cfg path s' entry) ∧
      work (inspect cfg path s' entry).entries + 1 = work s.entries) ∨
    (∃ s', nextEntry s = (none, s') ∧ Done all s' ∧ work s.entries = 0) := by
  have htotal := h.total
  rw [total] at htotal
  obtain ⟨path, entry, entries', ended', hadvance, htodo, hwork, hperm⟩ |
    ⟨ended', hadvance, htodo, hwork, hperm⟩ := advance_cases s.entries s.ended
  · refine .inl ⟨path, entry, { s with entries := entries', ended := ended' }, ?_, ⟨?_, ?_, ?_⟩, ?_⟩
    · rw [nextEntry, hadvance]
      rfl
    · rw [inspect_closed]
      exact h.opened
    · rw [total_inspect, ← htotal, htodo]
    · exact accounted_inspect cfg path entry (hperm.symm.trans h.accounted)
    · rw [work_inspect, hwork]
  · refine .inr ⟨close { s with entries := [], ended := ended' }, ?_, ?_, hwork⟩
    · rw [nextEntry, hadvance]
      rfl
    · rw [close, h.opened, if_neg Bool.false_ne_true]
      refine ⟨rfl, rfl, ?_, ?_⟩
      · rw [htodo] at htotal
        simpa [handlings] using htotal
      · simpa using hperm.symm.trans h.accounted

/-! ## One batch -/

/-- A batch ends early if it is larger than what is left. -/
theorem batchLoop_cases (n : Nat) (h : Running cfg all s) :
    (n ≤ work s.entries ∧ ∃ s', batchLoop cfg n s = (true, s') ∧ Running cfg all s' ∧
      work s'.entries + n = work s.entries) ∨
    (work s.entries < n ∧ ∃ s', batchLoop cfg n s = (false, s') ∧ Done all s') := by
  induction n generalizing s with
  | zero => exact .inl ⟨Nat.zero_le _, s, rfl, h, rfl⟩
  | succ n ih =>
      obtain ⟨path, entry, s₁, hnext, hrunning, hwork⟩ | ⟨s₁, hnext, hdone, hwork⟩ :=
        nextEntry_cases h
      · have hloop : batchLoop cfg (n + 1) s = batchLoop cfg n (inspect cfg path s₁ entry) := by
          rw [batchLoop, hnext]
        rw [hloop]
        obtain ⟨hle, s', hrest, hrunning', hwork'⟩ | ⟨hlt, s', hrest, hdone⟩ := ih hrunning
        · exact .inl ⟨by omega, s', hrest, hrunning', by omega⟩
        · exact .inr ⟨by omega, s', hrest, hdone⟩
      · refine .inr ⟨by omega, s₁, ?_, hdone⟩
        rw [batchLoop, hnext]

/-- Two batches are one. -/
theorem batchLoop_add (m n : Nat) {s' : Reconciler Time} (h : batchLoop cfg m s = (true, s')) :
    batchLoop cfg (m + n) s = batchLoop cfg n s' := by
  induction m generalizing s with
  | zero =>
      cases h
      rw [Nat.zero_add]
  | succ m ih =>
      rw [Nat.add_right_comm]
      rw [batchLoop] at h ⊢
      split
      next hnext =>
        rw [hnext] at h
        cases h
      next hnext =>
        rw [hnext] at h
        exact ih h

/-! ## All batches -/

/-- A run from any reconciler that goes on. -/
theorem run_of_running (sizes : Nat → Nat) (hsizes : ∀ i, 1 ≤ sizes i) (h : Running cfg all s) :
    ∃ n, (∀ i < n, (runBatch cfg (sizes i) (afterBatches cfg sizes i s)).1 = true) ∧
      (runBatch cfg (sizes n) (afterBatches cfg sizes n s)).1 = false ∧
      afterBatches cfg sizes (n + 1) s = (batchLoop cfg (work s.entries + 1) s).2 := by
  induction hwork : work s.entries using Nat.strongRecOn generalizing s sizes with
  | ind w ih =>
      have hbatch : runBatch cfg (sizes 0) s = batchLoop cfg (sizes 0) s := by
        rw [runBatch, h.opened, if_neg Bool.false_ne_true]
      obtain ⟨hle, s', hloop, hrunning, hless⟩ | ⟨hlt, s', hloop, hdone⟩ :=
        batchLoop_cases (sizes 0) h
      · have hpos := hsizes 0
        obtain ⟨n, hbefore, hlast, hafter⟩ := ih (work s'.entries) (by omega)
          (fun i => sizes (i + 1)) (fun i => hsizes (i + 1)) hrunning rfl
        have hstep : ∀ m, afterBatches cfg sizes (m + 1) s =
            afterBatches cfg (fun i => sizes (i + 1)) m s' := by
          intro m
          rw [afterBatches, hbatch, hloop]
        refine ⟨n + 1, fun i hi => ?_, ?_, ?_⟩
        · cases i with
          | zero =>
              rw [afterBatches, hbatch, hloop]
          | succ i =>
              rw [hstep]
              exact hbefore i (Nat.lt_of_succ_lt_succ hi)
        · rw [hstep]
          exact hlast
        · rw [hstep, hafter, ← batchLoop_add (sizes 0) (work s'.entries + 1) hloop]
          congr 2
          omega
      · refine ⟨0, fun i hi => absurd hi (Nat.not_lt_zero i), ?_, ?_⟩
        · rw [afterBatches, hbatch, hloop]
        · -- The batch that is just large enough ends in the same state.
          have hsame : batchLoop cfg (sizes 0) s = batchLoop cfg (w + 1) s := by
            obtain ⟨s₁, hfirst, hrunning, hnone⟩ := (batchLoop_cases (s := s) w h).elim
              (fun hleft => hleft.2) fun hright => absurd hright.1 (by omega)
            have hrest : ∀ k, batchLoop cfg (k + 1) s₁ = batchLoop cfg 1 s₁ := by
              intro k
              obtain ⟨path, entry, s₂, -, -, hmore⟩ | ⟨s₂, hnext, -, -⟩ := nextEntry_cases hrunning
              · omega
              · rw [batchLoop, batchLoop, hnext]
            obtain ⟨k, hk⟩ : ∃ k, sizes 0 = w + (k + 1) := ⟨sizes 0 - w - 1, by omega⟩
            rw [hk, batchLoop_add w (k + 1) hfirst, batchLoop_add w 1 hfirst, hrest]
          rw [afterBatches, afterBatches, hbatch, hsame]

/-- The last of some calls. -/
theorem afterBatches_succ (sizes : Nat → Nat) (n : Nat) (s : Reconciler Time) :
    afterBatches cfg sizes (n + 1) s =
      (runBatch cfg (sizes n) (afterBatches cfg sizes n s)).2 := by
  induction n generalizing sizes s with
  | zero => rfl
  | succ n ih =>
      rw [afterBatches, ih]
      rfl

theorem running_init (cfg : StartupConfig Time) (root : List (Entry Time)) :
    Running cfg (handlings cfg 0 (uploadsAll [] root)) (init root) where
  opened := rfl
  total := by
    rw [total, init, todo_cons, todo, List.flatMap_nil, List.append_nil]
    rfl
  accounted := accounted_init root

/-! ## The paths of the uploads -/

section Paths

omit [LinearOrder Time] [Sub Time] [Zero Time]

mutual

/-- The way to an upload of an entry goes through the entry. -/
theorem Entry.prefix_uploads (path : List String) (entry : Entry Time) :
    ∀ upload ∈ entry.uploads path, path ++ [entry.name] <+: upload.path := by
  cases entry with
  | file name modified =>
      intro upload hmem
      rw [Entry.uploads] at hmem
      split at hmem
      next =>
        rw [List.mem_singleton.1 hmem]
        exact List.prefix_rfl
      next => exact absurd hmem List.not_mem_nil
  | directory name entries =>
      intro upload hmem
      rw [Entry.uploads] at hmem
      obtain ⟨entry, -, hbelow⟩ := prefix_uploadsAll (path ++ [name]) entries upload hmem
      exact (List.prefix_append _ _).trans hbelow

theorem prefix_uploadsAll (path : List String) (entries : List (Entry Time)) :
    ∀ upload ∈ uploadsAll path entries,
      ∃ entry ∈ entries, path ++ [entry.name] <+: upload.path := by
  cases entries with
  | nil => exact fun _ hmem => absurd hmem List.not_mem_nil
  | cons entry entries =>
      intro upload hmem
      rw [uploadsAll] at hmem
      obtain hmem | hmem := List.mem_append.1 hmem
      · exact ⟨entry, List.mem_cons_self, entry.prefix_uploads path upload hmem⟩
      · obtain ⟨other, hother, hbelow⟩ := prefix_uploadsAll path entries upload hmem
        exact ⟨other, List.mem_cons_of_mem _ hother, hbelow⟩

end

/-- Entries of one directory are on the way to one file only if they have one name. -/
theorem child_unique {path file : List String} {a b : String} (ha : path ++ [a] <+: file)
    (hb : path ++ [b] <+: file) : a = b := by
  have hsame := List.prefix_of_prefix_length_le ha hb (by simp)
  have heq := hsame.eq_of_length (by simp)
  exact List.singleton_inj.1 (List.append_cancel_left heq)

mutual

theorem Entry.nodup_uploads (path : List String) (entry : Entry Time) (h : entry.Distinct) :
    ((entry.uploads path).map (·.path)).Nodup := by
  cases entry with
  | file name modified =>
      rw [Entry.uploads]
      split
      next => exact List.nodup_singleton _
      next => exact List.nodup_nil
  | directory name entries =>
      rw [Entry.Distinct] at h
      exact nodup_uploadsAll (path ++ [name]) entries h

/-- No path is that of two uploads. -/
theorem nodup_uploadsAll (path : List String) (entries : List (Entry Time))
    (h : DistinctAll entries) : ((uploadsAll path entries).map (·.path)).Nodup := by
  cases entries with
  | nil => exact List.nodup_nil
  | cons entry entries =>
      obtain ⟨hentry, hnames, hrest⟩ := h
      rw [uploadsAll, List.map_append, List.nodup_append]
      refine ⟨entry.nodup_uploads path hentry, nodup_uploadsAll path entries hrest, ?_⟩
      rintro file hfile _ hother rfl
      obtain ⟨upload, hupload, rfl⟩ := List.mem_map.1 hfile
      obtain ⟨upload', hupload', hpath⟩ := List.mem_map.1 hother
      obtain ⟨other, hmem, hbelow⟩ := prefix_uploadsAll path entries upload' hupload'
      rw [hpath] at hbelow
      exact hnames other hmem (child_unique hbelow (entry.prefix_uploads path upload hupload))

end

end Paths

/-! ## The run -/

/-- Batches of any sizes come to an end.  By then every upload was handled once, at the next
reading of the clock, every iterator was closed once, and the state is the one in which a
single batch ends that is large enough. -/
theorem run_batches (cfg : StartupConfig Time) (root : List (Entry Time)) (sizes : Nat → Nat)
    (hsizes : ∀ i, 1 ≤ sizes i) :
    ∃ n s, (∀ i < n, (runBatch cfg (sizes i) (afterBatches cfg sizes i (init root))).1 = true) ∧
      runBatch cfg (sizes n) (afterBatches cfg sizes n (init root)) = (false, s) ∧
      s = (runBatch cfg (sizeAll root + 1) (init root)).2 ∧
      s.actions = handlings cfg 0 (uploadsAll [] root) ∧
      (DistinctAll root → ((uploadsAll [] root).map (·.path)).Nodup) ∧
      s.entries = [] ∧ s.closed = true ∧ s.ended.Perm (List.range s.scans) := by
  have hrunning := running_init cfg root
  obtain ⟨n, hbefore, hlast, hafter⟩ := run_of_running sizes hsizes hrunning
  have hwork : work (init root).entries = sizeAll root := Nat.add_zero _
  have hsingle : runBatch cfg (sizeAll root + 1) (init root) =
      batchLoop cfg (sizeAll root + 1) (init root) := rfl
  rw [hwork, ← hsingle] at hafter
  obtain ⟨hle, -⟩ | ⟨-, s, hloop, hdone⟩ := batchLoop_cases (sizeAll root + 1) hrunning
  · omega
  rw [hsingle, hloop] at hafter
  refine ⟨n, s, hbefore, ?_, ?_, hdone.actions, nodup_uploadsAll [] root, hdone.entries,
    hdone.closed, hdone.ended⟩
  · exact Prod.ext hlast ((afterBatches_succ sizes n _).symm.trans hafter)
  · rw [hsingle, hloop]

/-- A fresh image at the top, and an old one two levels below. -/
def nestedUploads : List (Entry Int) :=
  [.directory "2026" [.directory "08" [.file "a.jpg" (some 1)], .file "b.txt" none],
    .file "c.JPEG" (some 95)]

/-- Eight seconds are allowed, and it is second 100. -/
def eightSeconds : StartupConfig Int := ⟨8, true, fun _ => 100⟩

/-- In batches of one entry. -/
theorem run_batches_nested :
    ∃ n s, (∀ i < n, (runBatch eightSeconds 1
        (afterBatches eightSeconds (fun _ => 1) i (init nestedUploads))).1 = true) ∧
      runBatch eightSeconds 1
        (afterBatches eightSeconds (fun _ => 1) n (init nestedUploads)) = (false, s) ∧
      s.actions = [.onSkipped ["2026", "08", "a.jpg"], .removeUpload ["2026", "08", "a.jpg"],
        .scheduleCandidate ["c.JPEG"]] := by
  obtain ⟨n, s, hbefore, hlast, -, hactions, -⟩ :=
    run_batches eightSeconds nestedUploads (fun _ => 1) fun _ => Nat.le_refl 1
  refine ⟨n, s, hbefore, hlast, hactions.trans ?_⟩
  decide +kernel

end StartupReconciler

end GateController
