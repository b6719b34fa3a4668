import GateController.Data.Search
import Mathlib.Tactic.Common

/-!
# The JPEG stream parser

`JpegStreamParser` is fed a stream in chunks and returns the frames that each
chunk completes.  What may still become a frame stays in its buffer.  A round of
the loop drops what stands before a start marker, and the whole buffer if there
is none.

The loop counts its rounds.  Each that goes on takes bytes off the buffer, so
the count never runs out, and `drain_eq` is the loop without it.
-/

namespace GateController

open Data

/-- Bytes as they are read. -/
abbrev Bytes := List UInt8

namespace JpegStreamParser

/-- `FF D8 FF`. -/
def startMarker : Bytes := [0xff, 0xd8, 0xff]

/-- `FF D9`. -/
def endMarker : Bytes := [0xff, 0xd9]

/-- The loop of `feed`: the frames that are complete, and what stays in the buffer. -/
def scan (maxFrameBytes : Nat) : Nat → Bytes → List Bytes × Bytes
  | 0, buffer => ([], buffer)
  | rounds + 1, buffer =>
      match find startMarker buffer with
      | none => ([], [])
      | some start =>
          let buffer := buffer.drop start
          match findFrom 3 endMarker buffer with
          | none => ([], if maxFrameBytes < buffer.length then [] else buffer)
          | some stop =>
              let frame := buffer.take (stop + 2)
              let rest := scan maxFrameBytes rounds (buffer.drop (stop + 2))
              (if frame.length ≤ maxFrameBytes then frame :: rest.1 else rest.1, rest.2)

/-- The loop, with as many rounds as it may need. -/
def drain (maxFrameBytes : Nat) (buffer : Bytes) : List Bytes × Bytes :=
  scan maxFrameBytes (buffer.length + 1) buffer

/-- `feed`: the frames that a chunk completes, and the buffer after it. -/
def feed (maxFrameBytes : Nat) (buffer chunk : Bytes) : List Bytes × Bytes :=
  if chunk = [] then ([], buffer) else drain maxFrameBytes (buffer ++ chunk)

/-- The frames that a parser returns for one chunk after another. -/
def feedAll (maxFrameBytes : Nat) (buffer : Bytes) : List Bytes → List Bytes
  | [] => []
  | chunk :: chunks =>
      (feed maxFrameBytes buffer chunk).1 ++
        feedAll maxFrameBytes (feed maxFrameBytes buffer chunk).2 chunks

/-! ## The loop -/

variable {maxFrameBytes : Nat}

/-- Rounds beyond the length of the buffer make no difference. -/
theorem scan_rounds {n m : Nat} {buffer : Bytes} (hn : buffer.length < n) (hm : buffer.length < m) :
    scan maxFrameBytes n buffer = scan maxFrameBytes m buffer := by
  induction n generalizing m buffer with
  | zero => omega
  | succ n ih =>
      cases m with
      | zero => omega
      | succ m =>
          rw [scan, scan]
          cases hstart : find startMarker buffer with
          | none => rfl
          | some start =>
              dsimp only
              cases hstop : findFrom 3 endMarker (buffer.drop start) with
              | none => rfl
              | some stop =>
                  dsimp only
                  have hlen : ((buffer.drop start).drop (stop + 2)).length < buffer.length := by
                    have hle := ((findFrom_eq_some_iff (by decide)).1 hstop).2.1.length_le (by decide)
                    simp only [List.length_drop] at hle ⊢
                    have : endMarker.length = 2 := rfl
                    omega
                  rw [ih (m := m) (by omega) (by omega)]

/-- One round of the loop. -/
theorem drain_eq (buffer : Bytes) :
    drain maxFrameBytes buffer =
      match find startMarker buffer with
      | none => ([], [])
      | some start =>
          match findFrom 3 endMarker (buffer.drop start) with
          | none => ([], if maxFrameBytes < (buffer.drop start).length then [] else buffer.drop start)
          | some stop =>
              (if ((buffer.drop start).take (stop + 2)).length ≤ maxFrameBytes then
                (buffer.drop start).take (stop + 2) ::
                  (drain maxFrameBytes ((buffer.drop start).drop (stop + 2))).1
              else (drain maxFrameBytes ((buffer.drop start).drop (stop + 2))).1,
              (drain maxFrameBytes ((buffer.drop start).drop (stop + 2))).2) := by
  conv_lhs => unfold drain
  rw [scan]
  cases hstart : find startMarker buffer with
  | none => rfl
  | some start =>
      dsimp only
      cases hstop : findFrom 3 endMarker (buffer.drop start) with
      | none => rfl
      | some stop =>
          have hlen : ((buffer.drop start).drop (stop + 2)).length < buffer.length := by
            have hle := ((findFrom_eq_some_iff (by decide)).1 hstop).2.1.length_le (by decide)
            simp only [List.length_drop] at hle ⊢
            have : endMarker.length = 2 := rfl
            omega
          dsimp only
          rw [drain, scan_rounds (m := ((buffer.drop start).drop (stop + 2)).length + 1) hlen
            (by omega)]

/-- A buffer without a start marker is dropped. -/
theorem drain_of_none {buffer : Bytes} (h : ∀ i, ¬ StandsAt startMarker buffer i) :
    drain maxFrameBytes buffer = ([], []) := by
  rw [drain_eq, (find_eq_none_iff (by decide)).2 h]

end JpegStreamParser

end GateController
