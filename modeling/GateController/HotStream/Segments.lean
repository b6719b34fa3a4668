import GateController.HotStream.Chunking

/-!
# What a parser takes out of any stream

Nothing is assumed of the stream here.  A call of `feed` ends, whatever the bytes are:
`Loop` is its loop, and it has a derivation for every buffer.  After a call the buffer is
`Ready`, so it is short and the bytes in it wait for an end marker.  Over all calls the frames
and the buffer are pieces of the stream, one behind the other: `fed_stream` cuts the stream
into junk and frames, and the buffer is what it ends with.
-/

namespace GateController

open Data

namespace JpegStreamParser

variable {maxFrameBytes : Nat}

/-! ## The loop -/

/-- The loop of `feed` as it runs: the buffer it begins with, the frames, and the buffer it
ends with. -/
inductive Loop (maxFrameBytes : Nat) : Bytes → List Bytes → Bytes → Prop where
  /-- The buffer is empty. -/
  | done : Loop maxFrameBytes [] [] []
  /-- There is no start marker. -/
  | clear {buffer : Bytes} (hne : buffer ≠ []) (hstart : find startMarker buffer = none) :
      Loop maxFrameBytes buffer [] []
  /-- There is no end marker, and the frame is too long already. -/
  | overflow {buffer : Bytes} {start : Nat} (hstart : find startMarker buffer = some start)
      (hstop : findFrom 3 endMarker (buffer.drop start) = none)
      (hlong : maxFrameBytes < (buffer.drop start).length) : Loop maxFrameBytes buffer [] []
  /-- There is no end marker yet. -/
  | wait {buffer : Bytes} {start : Nat} (hstart : find startMarker buffer = some start)
      (hstop : findFrom 3 endMarker (buffer.drop start) = none)
      (hfits : (buffer.drop start).length ≤ maxFrameBytes) :
      Loop maxFrameBytes buffer [] (buffer.drop start)
  /-- A frame is complete. -/
  | frame {buffer rest : Bytes} {start stop : Nat} {out : List Bytes}
      (hstart : find startMarker buffer = some start)
      (hstop : findFrom 3 endMarker (buffer.drop start) = some stop)
      (hfits : ((buffer.drop start).take (stop + 2)).length ≤ maxFrameBytes)
      (hrest : Loop maxFrameBytes ((buffer.drop start).drop (stop + 2)) out rest) :
      Loop maxFrameBytes buffer ((buffer.drop start).take (stop + 2) :: out) rest
  /-- A frame is complete, but too long. -/
  | discard {buffer rest : Bytes} {start stop : Nat} {out : List Bytes}
      (hstart : find startMarker buffer = some start)
      (hstop : findFrom 3 endMarker (buffer.drop start) = some stop)
      (hlong : maxFrameBytes < ((buffer.drop start).take (stop + 2)).length)
      (hrest : Loop maxFrameBytes ((buffer.drop start).drop (stop + 2)) out rest) :
      Loop maxFrameBytes buffer out rest

/-- A complete frame shortens the buffer. -/
theorem length_drop_lt {buffer : Bytes} {start stop : Nat}
    (hstop : findFrom 3 endMarker (buffer.drop start) = some stop) :
    ((buffer.drop start).drop (stop + 2)).length < buffer.length := by
  have hle := ((findFrom_eq_some_iff (by decide)).1 hstop).2.1.length_le (by decide)
  have htwo : endMarker.length = 2 := rfl
  simp only [List.length_drop] at hle ⊢
  omega

/-- The loop ends for every buffer, with what `drain` returns. -/
theorem loop_drain (buffer : Bytes) :
    Loop maxFrameBytes buffer (drain maxFrameBytes buffer).1 (drain maxFrameBytes buffer).2 := by
  induction hlen : buffer.length using Nat.strongRecOn generalizing buffer with
  | ind n ih =>
      rw [drain_eq]
      cases hstart : find startMarker buffer with
      | none =>
          by_cases hempty : buffer = []
          · subst hempty
            exact .done
          · exact .clear hempty hstart
      | some start =>
          dsimp only
          cases hstop : findFrom 3 endMarker (buffer.drop start) with
          | none =>
              dsimp only
              split
              next hlong => exact .overflow hstart hstop hlong
              next hfits => exact .wait hstart hstop (Nat.le_of_not_lt hfits)
          | some stop =>
              dsimp only
              have hrest := ih _ (hlen ▸ length_drop_lt hstop) _ rfl
              split
              next hfits => exact .frame hstart hstop hfits hrest
              next hlong => exact .discard hstart hstop (Nat.lt_of_not_le hlong) hrest

/-! ## The buffer -/

/-- A buffer between two calls. -/
structure Ready (maxFrameBytes : Nat) (buffer : Bytes) : Prop where
  length : buffer.length ≤ maxFrameBytes
  waits : buffer = [] ∨
    StandsAt startMarker buffer 0 ∧ ∀ i, 3 ≤ i → ¬ StandsAt endMarker buffer i

theorem ready_nil : Ready maxFrameBytes [] := ⟨Nat.zero_le _, .inl rfl⟩

/-- What is left of the buffer begins with the start marker that was found. -/
theorem standsAt_start {buffer : Bytes} {start : Nat}
    (hstart : find startMarker buffer = some start) :
    StandsAt startMarker (buffer.drop start) 0 := by
  rw [standsAt_drop, Nat.add_zero]
  exact ((find_eq_some_iff (by decide)).1 hstart).1

theorem Loop.ready {buffer rest : Bytes} {out : List Bytes}
    (h : Loop maxFrameBytes buffer out rest) : Ready maxFrameBytes rest := by
  induction h with
  | done => exact ready_nil
  | clear => exact ready_nil
  | overflow => exact ready_nil
  | wait hstart hstop hfits =>
      exact ⟨hfits, .inr ⟨standsAt_start hstart, (findFrom_eq_none_iff (by decide)).1 hstop⟩⟩
  | frame hstart hstop hfits hrest ih => exact ih
  | discard hstart hstop hlong hrest ih => exact ih

/-! ## Pieces of the stream -/

/-- Junk and a frame that is short enough.  Unlike in a `Segment`, anything may be in the
junk. -/
structure Taken (maxFrameBytes : Nat) (s : Bytes × Bytes) : Prop where
  shape : Shape s.2
  fits : s.2.length ≤ maxFrameBytes

/-- A list is cut into junk and the given frames, and ends with the given bytes. -/
def Cuts (maxFrameBytes : Nat) (l : Bytes) (out : List Bytes) (rest : Bytes) : Prop :=
  ∃ segments dropped, frames segments = out ∧ l = stream segments (dropped ++ rest) ∧
    ∀ s ∈ segments, Taken maxFrameBytes s

theorem cuts_nil (dropped rest : Bytes) : Cuts maxFrameBytes (dropped ++ rest) [] rest :=
  ⟨[], dropped, rfl, rfl, fun _ h => absurd h List.not_mem_nil⟩

/-- More junk in front. -/
theorem Cuts.skip {l rest : Bytes} {out : List Bytes} (h : Cuts maxFrameBytes l out rest)
    (junk : Bytes) : Cuts maxFrameBytes (junk ++ l) out rest := by
  obtain ⟨segments, dropped, rfl, rfl, htaken⟩ := h
  cases segments with
  | nil =>
      rw [stream, ← List.append_assoc]
      exact cuts_nil _ _
  | cons s segments =>
      refine ⟨(junk ++ s.1, s.2) :: segments, dropped, rfl, ?_, fun s' hs' => ?_⟩
      · rw [stream, stream, List.append_assoc]
      · obtain rfl | hs' := List.mem_cons.1 hs'
        · exact ⟨(htaken s List.mem_cons_self).shape, (htaken s List.mem_cons_self).fits⟩
        · exact htaken s' (List.mem_cons_of_mem _ hs')

/-- A frame in front. -/
theorem Cuts.cons {l rest frame : Bytes} {out : List Bytes} (h : Cuts maxFrameBytes l out rest)
    (hshape : Shape frame) (hfits : frame.length ≤ maxFrameBytes) :
    Cuts maxFrameBytes (frame ++ l) (frame :: out) rest := by
  obtain ⟨segments, dropped, rfl, rfl, htaken⟩ := h
  refine ⟨([], frame) :: segments, dropped, rfl, rfl, fun s hs => ?_⟩
  obtain rfl | hs := List.mem_cons.1 hs
  · exact ⟨hshape, hfits⟩
  · exact htaken s hs

/-- The bytes that the list ends with are followed by more, and are cut again. -/
theorem Cuts.append {l more rest rest' : Bytes} {out out' : List Bytes}
    (h : Cuts maxFrameBytes l out rest) (h' : Cuts maxFrameBytes (rest ++ more) out' rest') :
    Cuts maxFrameBytes (l ++ more) (out ++ out') rest' := by
  obtain ⟨segments, dropped, rfl, rfl, htaken⟩ := h
  induction segments with
  | nil =>
      rw [stream, List.append_assoc]
      exact h'.skip dropped
  | cons s segments ih =>
      have hs := htaken s List.mem_cons_self
      have hrest := ih fun s' hs' => htaken s' (List.mem_cons_of_mem _ hs')
      rw [stream, List.append_assoc, List.append_assoc]
      exact (hrest.cons hs.shape hs.fits).skip s.1

theorem Loop.cuts {buffer rest : Bytes} {out : List Bytes}
    (h : Loop maxFrameBytes buffer out rest) : Cuts maxFrameBytes buffer out rest := by
  induction h with
  | done => exact cuts_nil [] []
  | @clear buffer => simpa using cuts_nil buffer []
  | @overflow buffer => simpa using cuts_nil buffer []
  | @wait buffer start =>
      have hcuts := @cuts_nil maxFrameBytes (buffer.take start) (buffer.drop start)
      rwa [List.take_append_drop] at hcuts
  | @frame buffer rest start stop out hstart hstop hfits hrest ih =>
      have hcuts := (ih.cons (shape_take (standsAt_start hstart) hstop) hfits).skip
        (buffer.take start)
      rwa [List.take_append_drop, List.take_append_drop] at hcuts
  | @discard buffer rest start stop out hstart hstop hlong hrest ih =>
      have hcuts := (ih.skip ((buffer.drop start).take (stop + 2))).skip (buffer.take start)
      rwa [List.take_append_drop, List.take_append_drop] at hcuts

/-! ## All calls -/

/-- The buffer after one chunk after another. -/
def bufferAfter (maxFrameBytes : Nat) (buffer : Bytes) : List Bytes → Bytes
  | [] => buffer
  | chunk :: chunks => bufferAfter maxFrameBytes (feed maxFrameBytes buffer chunk).2 chunks

/-- A call ends, and keeps the buffer as it is or runs the loop. -/
theorem loop_feed (buffer chunk : Bytes) :
    chunk = [] ∧ feed maxFrameBytes buffer chunk = ([], buffer) ∨
      Loop maxFrameBytes (buffer ++ chunk) (feed maxFrameBytes buffer chunk).1
        (feed maxFrameBytes buffer chunk).2 := by
  unfold feed
  split
  next hempty => exact .inl ⟨hempty, rfl⟩
  next hne => exact .inr (loop_drain _)

theorem feed_ready {buffer : Bytes} (h : Ready maxFrameBytes buffer) (chunk : Bytes) :
    Ready maxFrameBytes (feed maxFrameBytes buffer chunk).2 := by
  obtain ⟨-, hsame⟩ | hloop := loop_feed buffer chunk
  · rw [hsame]
    exact h
  · exact hloop.ready

theorem feed_cuts (buffer chunk : Bytes) :
    Cuts maxFrameBytes (buffer ++ chunk) (feed maxFrameBytes buffer chunk).1
      (feed maxFrameBytes buffer chunk).2 := by
  obtain ⟨rfl, hsame⟩ | hloop := loop_feed buffer chunk
  · rw [hsame, List.append_nil]
    exact cuts_nil [] buffer
  · exact hloop.cuts

theorem ready_bufferAfter {buffer : Bytes} (h : Ready maxFrameBytes buffer) (chunks : List Bytes) :
    Ready maxFrameBytes (bufferAfter maxFrameBytes buffer chunks) := by
  induction chunks generalizing buffer with
  | nil => exact h
  | cons chunk chunks ih => exact ih (feed_ready h chunk)

theorem cuts_feedAll (buffer : Bytes) (chunks : List Bytes) :
    Cuts maxFrameBytes (buffer ++ chunks.flatten) (feedAll maxFrameBytes buffer chunks)
      (bufferAfter maxFrameBytes buffer chunks) := by
  induction chunks generalizing buffer with
  | nil =>
      rw [List.flatten_nil, List.append_nil]
      exact cuts_nil [] buffer
  | cons chunk chunks ih =>
      rw [List.flatten_cons, ← List.append_assoc]
      exact (feed_cuts buffer chunk).append (ih _)

/-- On any bytes a call of `feed` ends, and leaves a buffer that is short and waits for an end
marker.  The frames returned so far are pieces of the stream, one behind the other, each of
the shape of a frame and short enough, and the buffer is the end of the stream. -/
theorem feed_bounded (maxFrameBytes : Nat) (chunks : List Bytes) :
    (∀ buffer chunk, chunk ≠ [] → Loop maxFrameBytes (buffer ++ chunk)
      (feed maxFrameBytes buffer chunk).1 (feed maxFrameBytes buffer chunk).2) ∧
    Ready maxFrameBytes (bufferAfter maxFrameBytes [] chunks) ∧
    (∀ frame ∈ feedAll maxFrameBytes [] chunks, Shape frame ∧ frame.length ≤ maxFrameBytes) ∧
    ∃ segments dropped, frames segments = feedAll maxFrameBytes [] chunks ∧
      chunks.flatten =
        stream segments (dropped ++ bufferAfter maxFrameBytes [] chunks) := by
  obtain ⟨segments, dropped, hframes, hstream, htaken⟩ :=
    cuts_feedAll [] chunks
  refine ⟨fun buffer chunk hne => ?_, ready_bufferAfter ready_nil chunks, ?_,
    segments, dropped, hframes, hstream⟩
  · obtain ⟨hempty, -⟩ | hloop := loop_feed buffer chunk
    · exact absurd hempty hne
    · exact hloop
  · intro frame hframe
    rw [← hframes] at hframe
    obtain ⟨s, hs, rfl⟩ := List.mem_map.1 hframe
    exact ⟨(htaken s hs).shape, (htaken s hs).fits⟩

end JpegStreamParser

end GateController
