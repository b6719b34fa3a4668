import GateController.HotStream.Parser
import GateController.Data.Recency
import Mathlib.Algebra.Ring.Int.Defs

/-!
# The ring of hot frames

`HotFrameRing` keeps the frames that came last, oldest first.  A frame that comes again moves
to the end with a new time.  A new one goes to the end too, and frames are then given up at the
front until the ring keeps its limits.

`Held` is what holds of the ring after any frames were added: the counter is right, the limits
are kept, and what is held are the frames that came last.  The history it speaks of is the list
of arrivals, each a digest and a time, of the frames that were not rejected.
-/

namespace GateController

open Data

/-- What the ring asks of a frame: its SHA-256 digest, and whether it can be decoded. -/
structure FrameCodec (Digest : Type) where
  digest : Bytes → Digest
  isDecodableJpeg : Bytes → Bool

/-- A frame with its time and its digest. -/
structure HotFrame (Time Digest : Type) where
  capturedAt : Time
  digest : Digest
  frame : Bytes

/-- The limits of a ring. -/
structure RingLimits where
  maxFrames : Nat
  maxFrameBytes : Nat
  maxTotalBytes : Nat

/-- There is room for a frame. -/
structure RingLimits.Valid (limits : RingLimits) : Prop where
  frames : 1 ≤ limits.maxFrames
  frameBytes : 1 ≤ limits.maxFrameBytes
  totalBytes : limits.maxFrameBytes ≤ limits.maxTotalBytes

/-- `HotFrameRing`: its frames, oldest first, and its counter. -/
structure HotFrameRing (Time Digest : Type) where
  frames : List (HotFrame Time Digest) := []
  totalBytes : Int := 0

namespace HotFrameRing

variable {Time Digest : Type} [DecidableEq Digest]

/-- Whether `add` goes on with a frame. -/
def admissible (limits : RingLimits) (codec : FrameCodec Digest) (frame : Bytes) : Bool :=
  decide (0 < frame.length ∧ frame.length ≤ limits.maxFrameBytes) && codec.isDecodableJpeg frame

/-- The loop of `add`.  `popleft` raises on an empty ring. -/
def evict (limits : RingLimits) :
    List (HotFrame Time Digest) → Int → Option (HotFrameRing Time Digest)
  | [], totalBytes =>
      if limits.maxFrames < 0 ∨ (limits.maxTotalBytes : Int) < totalBytes then none
      else some ⟨[], totalBytes⟩
  | removed :: frames, totalBytes =>
      if limits.maxFrames < (removed :: frames).length ∨
          (limits.maxTotalBytes : Int) < totalBytes then
        evict limits frames (totalBytes - removed.frame.length)
      else some ⟨removed :: frames, totalBytes⟩

/-- `add`: whether the frame is new, and the ring after it.  The time is the reading of the
clock if none is given. -/
def add (limits : RingLimits) (codec : FrameCodec Digest) (ring : HotFrameRing Time Digest)
    (frame : Bytes) (capturedAt : Time) : Option (Bool × HotFrameRing Time Digest) :=
  if admissible limits codec frame then
    let digest := codec.digest frame
    match ring.frames.find? fun candidate => candidate.digest == digest with
    | some candidate =>
        some (false, { ring with
          frames := ring.frames.eraseP (fun candidate => candidate.digest == digest) ++
            [⟨capturedAt, digest, candidate.frame⟩] })
    | none =>
        (evict limits (ring.frames ++ [⟨capturedAt, digest, frame⟩])
          (ring.totalBytes + frame.length)).map fun ring => (true, ring)
  else some (false, ring)

/-- The ring after one call of `add` after another. -/
def addAll (limits : RingLimits) (codec : FrameCodec Digest) (ring : HotFrameRing Time Digest) :
    List (Bytes × Time) → Option (HotFrameRing Time Digest)
  | [] => some ring
  | call :: calls => do
      let added ← add limits codec ring call.1 call.2
      addAll limits codec added.2 calls

/-- `l[:count]`, which counts from the end if the count is negative. -/
def sliceTo {α : Type} (count : Int) (l : List α) : List α :=
  l.take (if 0 ≤ count then count else l.length + count).toNat

section Select

variable [LE Time] [DecidableLE Time] [Sub Time] [Zero Time]

/-- A frame is young enough. -/
def fresh (now maxAge : Time) (f : HotFrame Time Digest) : Bool :=
  decide (0 ≤ now - f.capturedAt ∧ now - f.capturedAt ≤ maxAge)

/-- `select`. -/
def select (ring : HotFrameRing Time Digest) (count : Int) (now maxAge : Time) : List Bytes :=
  sliceTo count ((ring.frames.reverse.filter (fresh now maxAge)).map (·.frame))

end Select

/-! ## The history -/

/-- The digest and the time of a frame. -/
def arrival (f : HotFrame Time Digest) : Digest × Time := (f.digest, f.capturedAt)

/-- The calls that accept a frame or refresh it. -/
def arriving (limits : RingLimits) (codec : FrameCodec Digest) (calls : List (Bytes × Time)) :
    List (Bytes × Time) :=
  calls.filter fun call => admissible limits codec call.1

/-- The arrivals of the frames that are not rejected. -/
def arrivals (limits : RingLimits) (codec : FrameCodec Digest) (calls : List (Bytes × Time)) :
    List (Digest × Time) :=
  (arriving limits codec calls).map fun call => (codec.digest call.1, call.2)

/-- The bytes of some frames. -/
def bytesOf (frames : List (HotFrame Time Digest)) : Int :=
  (frames.map fun f => (f.frame.length : Int)).sum

/-- What holds of the ring after some calls of `add`. -/
structure Held (limits : RingLimits) (codec : FrameCodec Digest) (calls : List (Bytes × Time))
    (ring : HotFrameRing Time Digest) : Prop where
  counter : ring.totalBytes = bytesOf ring.frames
  bytes : ring.totalBytes ≤ limits.maxTotalBytes
  count : ring.frames.length ≤ limits.maxFrames
  /-- A frame is held under its own digest, and it was in a call. -/
  own : ∀ f ∈ ring.frames,
    f.digest = codec.digest f.frame ∧ ∃ time, (f.frame, time) ∈ arriving limits codec calls
  /-- The frames are those that arrived last. -/
  recent : ring.frames.map arrival <:+ latest Prod.fst (arrivals limits codec calls)
  nonempty : arrivals limits codec calls ≠ [] → ring.frames ≠ []

variable {limits : RingLimits} {codec : FrameCodec Digest} {calls : List (Bytes × Time)}
  {ring : HotFrameRing Time Digest}

omit [DecidableEq Digest] in
theorem bytesOf_cons (f : HotFrame Time Digest) (frames : List (HotFrame Time Digest)) :
    bytesOf (f :: frames) = f.frame.length + bytesOf frames := List.sum_cons

omit [DecidableEq Digest] in
theorem bytesOf_append (front back : List (HotFrame Time Digest)) :
    bytesOf (front ++ back) = bytesOf front + bytesOf back := by
  rw [bytesOf, List.map_append, List.sum_append]
  rfl

omit [DecidableEq Digest] in
theorem bytesOf_singleton (f : HotFrame Time Digest) : bytesOf [f] = f.frame.length := by
  rw [bytesOf_cons]
  exact Int.add_zero _

/-- The frames are held under distinct digests. -/
theorem Held.distinct (h : Held limits codec calls ring) : (ring.frames.map (·.digest)).Nodup := by
  have hnodup := (nodup_latest Prod.fst (arrivals limits codec calls)).sublist
    (h.recent.sublist.map Prod.fst)
  rwa [List.map_map] at hnodup

/-! ## One call -/

omit [DecidableEq Digest] in
/-- The loop ends before it comes to a frame that fits, with a ring that keeps its limits. -/
theorem evict_concat (hvalid : limits.Valid) (front : List (HotFrame Time Digest))
    {last : HotFrame Time Digest} (hfits : last.frame.length ≤ limits.maxTotalBytes) :
    ∃ kept, evict limits (front ++ [last]) (bytesOf (front ++ [last])) =
        some ⟨kept ++ [last], bytesOf (kept ++ [last])⟩ ∧
      kept <:+ front ∧ (kept ++ [last]).length ≤ limits.maxFrames ∧
      bytesOf (kept ++ [last]) ≤ limits.maxTotalBytes := by
  induction front with
  | nil =>
      have hframes := hvalid.frames
      have hbytes : bytesOf [last] ≤ limits.maxTotalBytes := by
        rw [bytesOf_singleton]
        omega
      refine ⟨[], ?_, List.suffix_rfl, hframes, hbytes⟩
      rw [List.nil_append, evict, if_neg]
      rw [List.length_singleton]
      omega
  | cons f front ih =>
      rw [List.cons_append, evict]
      split
      next hover =>
        obtain ⟨kept, hevict, hsuffix, hlimits⟩ := ih
        have hless : bytesOf (f :: (front ++ [last])) - f.frame.length =
            bytesOf (front ++ [last]) := by
          rw [bytesOf_cons]
          omega
        exact ⟨kept, by rw [hless, hevict], hsuffix.trans (List.suffix_cons _ _), hlimits⟩
      next hwithin =>
        refine ⟨f :: front, rfl, List.suffix_rfl, ?_, ?_⟩
        · rw [List.cons_append]
          omega
        · rw [List.cons_append]
          omega

theorem held_nil : Held limits codec [] ({} : HotFrameRing Time Digest) where
  counter := rfl
  bytes := Int.natCast_nonneg _
  count := Nat.zero_le _
  own _ hf := absurd hf List.not_mem_nil
  recent := List.suffix_rfl
  nonempty h := absurd rfl h

omit [DecidableEq Digest] in
theorem arriving_conctimeof_neg {frame : Bytes} {time : Time}
    (h : ¬ admissible limits codec frame) :
    arriving limits codec (calls ++ [(frame, time)]) = arriving limits codec calls := by
  simp [arriving, List.filter_append, h]

omit [DecidableEq Digest] in
theorem arriving_conctimeof_pos {frame : Bytes} {time : Time} (h : admissible limits codec frame) :
    arriving limits codec (calls ++ [(frame, time)]) =
      arriving limits codec calls ++ [(frame, time)] := by
  simp [arriving, List.filter_append, h]

/-- An arrival takes the place of the one with its digest. -/
theorem latest_arrivals_concat {frame : Bytes} {time : Time} (h : admissible limits codec frame) :
    latest Prod.fst (arrivals limits codec (calls ++ [(frame, time)])) =
      (latest Prod.fst (arrivals limits codec calls)).filter (fun a => a.1 ≠ codec.digest frame) ++
        [(codec.digest frame, time)] := by
  rw [arrivals, arriving_conctimeof_pos h, List.map_append, List.map_singleton, latest_concat]
  rfl

/-- A frame that was in a call is in it when more calls were made. -/
theorem Held.own_append (h : Held limits codec calls ring) (call : Bytes × Time) :
    ∀ f ∈ ring.frames, f.digest = codec.digest f.frame ∧
      ∃ time, (f.frame, time) ∈ arriving limits codec (calls ++ [call]) := by
  intro f hf
  obtain ⟨hdigest, time, hmem⟩ := h.own f hf
  refine ⟨hdigest, time, ?_⟩
  rw [arriving, List.filter_append]
  exact List.mem_append_left _ hmem

/-- A frame that is held already moves to the end. -/
theorem Held.refresh (h : Held limits codec calls ring) {frame : Bytes} {time : Time}
    (hadm : admissible limits codec frame) {candidate : HotFrame Time Digest}
    (hfind : ring.frames.find? (fun f => f.digest == codec.digest frame) = some candidate) :
    Held limits codec (calls ++ [(frame, time)])
      { ring with frames := ring.frames.eraseP (fun f => f.digest == codec.digest frame) ++
          [⟨time, codec.digest frame, candidate.frame⟩] } := by
  obtain ⟨hsame, front, back, hsplit, hfront⟩ := List.find?_eq_some_iff_append.1 hfind
  have hdigest : candidate.digest = codec.digest frame := by simpa using hsame
  have hfront' : ∀ f ∈ front, f.digest ≠ codec.digest frame := by
    intro f hf
    simpa using hfront f hf
  have hnodup := h.distinct
  rw [hsplit, List.map_append, List.map_cons] at hnodup
  have hback : ∀ f ∈ back, f.digest ≠ codec.digest frame := by
    intro f hf heq
    have hnot := (List.nodup_cons.1 (List.nodup_append.1 hnodup).2.1).1
    exact hnot (List.mem_map.2 ⟨f, hf, heq.trans hdigest.symm⟩)
  have herase : ring.frames.eraseP (fun f => f.digest == codec.digest frame) = front ++ back := by
    rw [hsplit, List.eraseP_append_right _ (by simpa using hfront'),
      List.eraseP_cons_of_pos (by simpa using hdigest)]
  have hown := h.own_append (frame, time)
  have hmem : candidate ∈ ring.frames := by
    rw [hsplit]
    exact List.mem_append_right _ List.mem_cons_self
  have hbytes : bytesOf (front ++ back ++ [⟨time, codec.digest frame, candidate.frame⟩]) =
      bytesOf ring.frames := by
    rw [hsplit, bytesOf_append, bytesOf_append, bytesOf_append, bytesOf_cons candidate,
      bytesOf_singleton]
    dsimp only
    omega
  rw [herase]
  refine ⟨?_, h.bytes, ?_, ?_, ?_, fun _ => by simp⟩
  · exact h.counter.trans hbytes.symm
  · have hcount := h.count
    rw [hsplit, List.length_append, List.length_cons] at hcount
    simp only [List.length_append, List.length_singleton]
    omega
  · intro f hf
    obtain hf | hf := List.mem_append.1 hf
    · refine hown f ?_
      rw [hsplit]
      obtain hf | hf := List.mem_append.1 hf
      · exact List.mem_append_left _ hf
      · exact List.mem_append_right _ (List.mem_cons_of_mem _ hf)
    · obtain rfl := List.mem_singleton.1 hf
      exact ⟨hdigest.symm.trans (hown candidate hmem).1, (hown candidate hmem).2⟩
  · obtain ⟨older, holder⟩ := h.recent
    rw [latest_arrivals_concat hadm, ← holder, List.filter_append, hsplit]
    refine ⟨older.filter fun a => a.1 ≠ codec.digest frame, ?_⟩
    have hrest : ((front ++ candidate :: back).map arrival).filter
        (fun a => a.1 ≠ codec.digest frame) = (front ++ back).map arrival := by
      rw [List.map_append, List.filter_append, List.map_cons, List.filter_cons_of_neg,
        List.filter_eq_self.2, List.filter_eq_self.2, List.map_append]
      · simpa [arrival] using hback
      · simpa [arrival] using hfront'
      · simp [arrival, hdigest]
    rw [hrest, List.map_append, List.append_assoc]
    rfl

/-- A new frame goes to the end, and the front gives way. -/
theorem Held.insert (hvalid : limits.Valid) (h : Held limits codec calls ring) {frame : Bytes}
    {time : Time} (hadm : admissible limits codec frame)
    (hfind : ring.frames.find? (fun f => f.digest == codec.digest frame) = none) :
    ∃ ring', evict limits (ring.frames ++ [⟨time, codec.digest frame, frame⟩])
        (ring.totalBytes + frame.length) = some ring' ∧
      Held limits codec (calls ++ [(frame, time)]) ring' := by
  have hnew : ∀ f ∈ ring.frames, f.digest ≠ codec.digest frame := by
    intro f hf
    simpa using List.find?_eq_none.1 hfind f hf
  have hlen : frame.length ≤ limits.maxFrameBytes := by
    simp only [admissible, Bool.and_eq_true, decide_eq_true_eq] at hadm
    exact hadm.1.2
  let last : HotFrame Time Digest := ⟨time, codec.digest frame, frame⟩
  have hfits : last.frame.length ≤ limits.maxTotalBytes := Nat.le_trans hlen hvalid.totalBytes
  obtain ⟨kept, hevict, hsuffix, hcount, hbytes⟩ := evict_concat hvalid ring.frames hfits
  have htotal : ring.totalBytes + frame.length =
      bytesOf (ring.frames ++ [⟨time, codec.digest frame, frame⟩]) := by
    rw [bytesOf_append, bytesOf_singleton, h.counter]
  refine ⟨_, htotal ▸ hevict, rfl, hbytes, hcount, ?_, ?_, fun _ => by simp⟩
  · intro f hf
    obtain hf | hf := List.mem_append.1 hf
    · exact h.own_append (frame, time) f (hsuffix.subset hf)
    · obtain rfl := List.mem_singleton.1 hf
      refine ⟨rfl, time, ?_⟩
      rw [arriving_conctimeof_pos hadm]
      exact List.mem_append_right _ (List.mem_singleton_self _)
  · obtain ⟨older, holder⟩ := h.recent
    obtain ⟨dropped, hdropped⟩ := hsuffix
    have hstay : (ring.frames.map arrival).filter (fun a => a.1 ≠ codec.digest frame) =
        ring.frames.map arrival := by
      rw [List.filter_eq_self]
      simpa [arrival] using hnew
    rw [latest_arrivals_concat hadm, ← holder, List.filter_append, hstay, ← hdropped]
    refine ⟨older.filter (fun a => a.1 ≠ codec.digest frame) ++ dropped.map arrival, ?_⟩
    simp only [List.map_append, List.append_assoc]
    rfl

/-- A call of `add` succeeds, and what holds of the ring goes on holding. -/
theorem add_held (hvalid : limits.Valid) (h : Held limits codec calls ring) (frame : Bytes)
    (time : Time) :
    ∃ new ring', add limits codec ring frame time = some (new, ring') ∧
      Held limits codec (calls ++ [(frame, time)]) ring' := by
  unfold add
  split
  next hadm =>
    dsimp only
    cases hfind : ring.frames.find? fun f => f.digest == codec.digest frame with
    | some candidate => exact ⟨false, _, rfl, h.refresh hadm hfind⟩
    | none =>
        obtain ⟨ring', hevict, hheld⟩ := h.insert hvalid hadm hfind
        exact ⟨true, ring', by rw [hevict]; rfl, hheld⟩
  next hadm =>
    refine ⟨false, ring, rfl, h.counter, h.bytes, h.count, h.own_append _, ?_, ?_⟩
    · rw [arrivals, arriving_conctimeof_neg hadm]
      exact h.recent
    · rw [arrivals, arriving_conctimeof_neg hadm]
      exact h.nonempty

/-- Any calls of `add` succeed. -/
theorem addAll_held (hvalid : limits.Valid) (h : Held limits codec calls ring)
    (more : List (Bytes × Time)) :
    ∃ ring', addAll limits codec ring more = some ring' ∧
      Held limits codec (calls ++ more) ring' := by
  induction more generalizing calls ring with
  | nil => exact ⟨ring, rfl, by rwa [List.append_nil]⟩
  | cons call more ih =>
      obtain ⟨new, added, hadd, hheld⟩ := add_held hvalid h call.1 call.2
      obtain ⟨ring', hrest, hheld'⟩ := ih hheld
      refine ⟨ring', ?_, by rwa [List.append_assoc] at hheld'⟩
      rw [addAll, hadd]
      exact hrest

/-! ## The newest frame -/

/-- The frame that arrived last is the newest one. -/
theorem Held.newest (h : Held limits codec calls ring) :
    ring.frames.getLast?.map arrival = (arrivals limits codec calls).getLast? := by
  cases harrivals : arrivals limits codec calls using List.reverseRecOn with
  | nil =>
      have hnil : ring.frames.map arrival = [] := by
        have hrecent := h.recent
        rw [harrivals] at hrecent
        exact List.suffix_nil.1 hrecent
      rw [List.map_eq_nil_iff.1 hnil]
      rfl
  | append_singleton before last =>
      have hne := h.nonempty (by simp [harrivals])
      obtain ⟨older, holder⟩ := h.recent
      rw [harrivals, latest_concat] at holder
      have hlast := congrArg List.getLast? holder
      rw [List.getLast?_append_of_ne_nil _ (by simpa using hne), List.getLast?_concat,
        List.getLast?_map] at hlast
      rw [hlast, List.getLast?_concat]

/-- If no two frames have one digest, the newest frame is the very one that arrived last. -/
theorem Held.newest_frame (h : Held limits codec calls ring)
    (hinj : ∀ a ∈ calls, ∀ b ∈ calls, codec.digest a.1 = codec.digest b.1 → a.1 = b.1) :
    ring.frames.getLast?.map (fun f => (f.frame, f.capturedAt)) =
      (arriving limits codec calls).getLast? := by
  have hnewest := h.newest
  rw [arrivals, List.getLast?_map] at hnewest
  cases hlast : (arriving limits codec calls).getLast? with
  | none =>
      rw [hlast] at hnewest
      rw [Option.map_eq_none_iff.1 hnewest]
      rfl
  | some call =>
      rw [hlast] at hnewest
      obtain ⟨f, hf, heq⟩ := Option.map_eq_some_iff.1 hnewest
      obtain ⟨hdigest, htime⟩ := Prod.mk.inj heq
      obtain ⟨hown, time, hmem⟩ := h.own f (List.mem_of_getLast? hf)
      have hsame : f.frame = call.1 :=
        hinj _ (List.mem_of_mem_filter hmem) call
          (List.mem_of_mem_filter (List.mem_of_getLast? hlast)) (hown.symm.trans hdigest)
      rw [hf, Option.map_some, hsame, htime]

/-! ## Selecting -/

section Select

variable [LE Time] [DecidableLE Time] [Sub Time] [Zero Time]

omit [DecidableEq Digest] in
/-- What `select` returns are frames of the ring, the newest first, that are young enough. -/
theorem select_eq (ring : HotFrameRing Time Digest) (count : Int) (now maxAge : Time) :
    ∃ chosen : List (HotFrame Time Digest), select ring count now maxAge = chosen.map (·.frame) ∧
      chosen.Sublist ring.frames.reverse ∧
      ∀ f ∈ chosen, 0 ≤ now - f.capturedAt ∧ now - f.capturedAt ≤ maxAge := by
  refine ⟨sliceTo count (ring.frames.reverse.filter (fresh now maxAge)), ?_, ?_, fun f hf => ?_⟩
  · rw [select, sliceTo, sliceTo, List.map_take, List.length_map]
  · exact (List.take_sublist _ _).trans List.filter_sublist
  · exact of_decide_eq_true (List.mem_filter.1 (List.mem_of_mem_take hf)).2

/-- No frame is selected twice. -/
theorem Held.select_nodup (h : Held limits codec calls ring) (count : Int) (now maxAge : Time) :
    (select ring count now maxAge).Nodup := by
  obtain ⟨chosen, hselect, hsub, -⟩ := select_eq ring count now maxAge
  have hnodup : (chosen.map (·.digest)).Nodup := by
    refine List.Nodup.sublist (hsub.map _) ?_
    rw [List.map_reverse]
    exact List.nodup_reverse.2 h.distinct
  have hdigests : chosen.map (·.digest) = (chosen.map (·.frame)).map codec.digest := by
    rw [List.map_map]
    exact List.map_congr_left fun f hf => (h.own f (List.mem_reverse.1 (hsub.subset hf))).1
  rw [hselect]
  exact (hdigests ▸ hnodup).of_map _

/-- After any calls of `add` the ring keeps its limits and holds the frames that arrived last
under distinct digests, the newest at the end.  What is selected of it are distinct frames that
are young enough, the newest first. -/
theorem ring_holds_newest (limits : RingLimits) (hvalid : limits.Valid) (codec : FrameCodec Digest)
    (calls : List (Bytes × Time)) :
    ∃ ring, addAll limits codec {} calls = some ring ∧ Held limits codec calls ring ∧
      (ring.frames.map (·.digest)).Nodup ∧
      ring.frames.getLast?.map arrival = (arrivals limits codec calls).getLast? ∧
      ((∀ a ∈ calls, ∀ b ∈ calls, codec.digest a.1 = codec.digest b.1 → a.1 = b.1) →
        ring.frames.getLast?.map (fun f => (f.frame, f.capturedAt)) =
          (arriving limits codec calls).getLast?) ∧
      ∀ (count : Int) (now maxAge : Time), (select ring count now maxAge).Nodup ∧
        ∃ chosen : List (HotFrame Time Digest), select ring count now maxAge = chosen.map (·.frame) ∧
          chosen.Sublist ring.frames.reverse ∧
          ∀ f ∈ chosen, 0 ≤ now - f.capturedAt ∧ now - f.capturedAt ≤ maxAge := by
  have hempty : Held limits codec [] ({} : HotFrameRing Time Digest) := held_nil
  obtain ⟨ring, hadd, hheld⟩ := addAll_held hvalid hempty calls
  exact ⟨ring, hadd, hheld, hheld.distinct, hheld.newest, hheld.newest_frame,
    fun count now maxAge => ⟨hheld.select_nodup count now maxAge, select_eq ring count now maxAge⟩⟩

/-- Three frames and a ring with room for two.  The second comes again, and one is too long. -/
theorem ring_holds_newest_three :
    ∃ ring, addAll ⟨2, 3, 5⟩ ⟨id, fun frame => frame.head? == some 0xff⟩
        ({} : HotFrameRing Int Bytes)
        [([0xff, 1], 1), ([0xff, 2], 2), ([0xff, 0, 0, 0], 3), ([0xff, 2], 4), ([0xff, 3], 5)] =
          some ring ∧
      (select ring 2 6 3) = [[0xff, 3], [0xff, 2]] := by
  have hvalid : (⟨2, 3, 5⟩ : RingLimits).Valid := ⟨by decide, by decide, by decide⟩
  obtain ⟨ring, hadd, -⟩ := ring_holds_newest _ hvalid
    ⟨id, fun frame => frame.head? == some (0xff : UInt8)⟩
    [([0xff, 1], (1 : Int)), ([0xff, 2], 2), ([0xff, 0, 0, 0], 3), ([0xff, 2], 4), ([0xff, 3], 5)]
  refine ⟨ring, hadd, ?_⟩
  have hring := Option.some.inj (hadd.symm.trans rfl)
  rw [hring]
  rfl

end Select

end HotFrameRing

end GateController
