import GateController.HotStream.Parser

/-!
# Frames and chunks

A stream is made of frames with junk before each of them and after the last.  A
parser that gets the stream in chunks returns its frames, unless a cut between
two chunks falls inside the start marker of a frame: then the bytes before the
cut are dropped with the rest of a buffer that has no start marker in it.
`feedAll_eq_frames_iff` says that this is the only case.

For one direction, `drain_stream` follows the parser through the segments that a
chunk completes.  For the other, `Scans` is all that a parser can do with a
stream, whatever it drops: it takes out pieces that have the shape of a frame,
one behind the other.  Each of them begins in another frame of the stream, so a
parser that has lost the beginning of a frame cannot make up for it.
-/

namespace GateController

open Data

namespace JpegStreamParser

/-! ## Streams -/

/-- A frame: it begins with a start marker and ends with the first end marker
behind it. -/
structure Shape (f : Bytes) : Prop where
  starts : StandsAt startMarker f 0
  long : 5 ≤ f.length
  ends : StandsAt endMarker f (f.length - 2)
  first : ∀ i, 3 ≤ i → StandsAt endMarker f i → f.length ≤ i + 2

/-- Junk, and the frame behind it.  No start marker begins in the junk. -/
structure Segment (maxFrameBytes : Nat) (s : Bytes × Bytes) : Prop where
  shape : Shape s.2
  fits : s.2.length ≤ maxFrameBytes
  junk : ∀ i < s.1.length, ¬ StandsAt startMarker (s.1 ++ s.2) i

/-- The bytes of some segments and of the junk behind them. -/
def stream : List (Bytes × Bytes) → Bytes → Bytes
  | [], tail => tail
  | s :: segments, tail => s.1 ++ (s.2 ++ stream segments tail)

/-- Every segment is junk and a frame, and there is only junk behind them. -/
structure WellFormed (maxFrameBytes : Nat) (segments : List (Bytes × Bytes)) (tail : Bytes) :
    Prop where
  segment : ∀ s ∈ segments, Segment maxFrameBytes s
  tail : ∀ i, ¬ StandsAt startMarker tail i

/-- The frames of a stream. -/
def frames (segments : List (Bytes × Bytes)) : List Bytes := segments.map Prod.snd

/-- The `n`-th byte is the second or the third of a frame. -/
def CutsMarker (segments : List (Bytes × Bytes)) (n : Nat) : Prop :=
  ∃ before junk frame after, segments = before ++ (junk, frame) :: after ∧
    (n = (stream before junk).length + 1 ∨ n = (stream before junk).length + 2)

variable {maxFrameBytes : Nat} {segments : List (Bytes × Bytes)} {tail : Bytes}
  {s : Bytes × Bytes}

theorem not_cutsMarker_nil {n : Nat} : ¬ CutsMarker [] n := by
  rintro ⟨before, junk, frame, after, h, -⟩
  cases before <;> cases h

theorem cutsMarker_cons {n : Nat} :
    CutsMarker (s :: segments) n ↔ n = s.1.length + 1 ∨ n = s.1.length + 2 ∨
      s.1.length + s.2.length ≤ n ∧ CutsMarker segments (n - (s.1.length + s.2.length)) := by
  constructor
  · rintro ⟨before, junk, frame, after, hsplit, hn⟩
    cases before with
    | nil =>
        cases hsplit
        rcases hn with hn | hn
        · exact .inl hn
        · exact .inr (.inl hn)
    | cons b before =>
        obtain ⟨rfl, rfl⟩ := List.cons.inj hsplit
        simp only [stream, List.length_append] at hn
        refine .inr (.inr ⟨by omega, before, junk, frame, after, rfl, ?_⟩)
        omega
  · rintro (hn | hn | ⟨hle, before, junk, frame, after, rfl, hn⟩)
    · exact ⟨[], s.1, s.2, segments, rfl, .inl hn⟩
    · exact ⟨[], s.1, s.2, segments, rfl, .inr hn⟩
    · refine ⟨s :: before, junk, frame, after, rfl, ?_⟩
      simp only [stream, List.length_append]
      omega

/-- With less junk in front, the same bytes come earlier. -/
theorem cutsMarker_of_length {junk : Bytes} {k n : Nat} (h : junk.length + k = s.1.length) :
    CutsMarker ((junk, s.2) :: segments) n ↔ CutsMarker (s :: segments) (n + k) := by
  rw [cutsMarker_cons, cutsMarker_cons]
  have hsub : n + k - (s.1.length + s.2.length) = n - (junk.length + s.2.length) := by omega
  rw [hsub]
  dsimp only
  constructor
  · rintro (hn | hn | ⟨hle, hn⟩)
    · exact .inl (by omega)
    · exact .inr (.inl (by omega))
    · exact .inr (.inr ⟨by omega, hn⟩)
  · rintro (hn | hn | ⟨hle, hn⟩)
    · exact .inl (by omega)
    · exact .inr (.inl (by omega))
    · exact .inr (.inr ⟨by omega, hn⟩)

/-- Of two beginnings of one list, the shorter is a beginning of the longer. -/
theorem exists_append_of_le {a b c d : Bytes} (h : a ++ b = c ++ d) (hle : a.length ≤ c.length) :
    ∃ e, c = a ++ e ∧ b = e ++ d := by
  rcases List.append_eq_append_iff.1 h with ⟨e, hc, hb⟩ | ⟨e, ha, hd⟩
  · exact ⟨e, hc, hb⟩
  · have hnil : e = [] := by
      rw [ha, List.length_append] at hle
      exact List.eq_nil_of_length_eq_zero (by omega)
    subst hnil
    exact ⟨[], by simpa using ha.symm, by simpa using hd.symm⟩

theorem WellFormed.head (h : WellFormed maxFrameBytes (s :: segments) tail) :
    Segment maxFrameBytes s := h.segment s List.mem_cons_self

theorem WellFormed.rest (h : WellFormed maxFrameBytes (s :: segments) tail) :
    WellFormed maxFrameBytes segments tail :=
  ⟨fun s' hs' => h.segment s' (List.mem_cons_of_mem _ hs'), h.tail⟩

theorem WellFormed.cons (h : WellFormed maxFrameBytes segments tail)
    (hs : Segment maxFrameBytes s) : WellFormed maxFrameBytes (s :: segments) tail where
  segment s' hs' := by
    rcases List.mem_cons.1 hs' with rfl | hs'
    · exact hs
    · exact h.segment s' hs'
  tail := h.tail

/-- Less junk before the frame. -/
theorem Segment.drop (h : Segment maxFrameBytes s) (k : Nat) :
    Segment maxFrameBytes (s.1.drop k, s.2) where
  shape := h.shape
  fits := h.fits
  junk i hi := by
    rw [List.length_drop] at hi
    have hbehind := h.junk (k + i) (by omega)
    rw [← standsAt_drop, List.drop_append_of_le_length (by omega)] at hbehind
    exact hbehind

/-- The first start marker of a segment is that of its frame. -/
theorem Segment.no_marker (h : Segment maxFrameBytes s) {i : Nat} (hi : i < s.1.length)
    (rest : Bytes) : ¬ StandsAt startMarker (s.1 ++ (s.2 ++ rest)) i := by
  have hlong := h.shape.long
  have hthree : startMarker.length = 3 := rfl
  rw [← List.append_assoc, standsAt_append (by rw [List.length_append]; omega)]
  exact h.junk i hi

theorem Shape.start_append (h : Shape s.2) (rest : Bytes) :
    StandsAt startMarker (s.1 ++ (s.2 ++ rest)) s.1.length :=
  (standsAt_append_right (i := 0)).2 (h.starts.append (by decide))

/-! ## What the parser does with a segment -/

/-- Junk and the beginning of a frame with its whole start marker: the junk goes. -/
theorem drain_partial (h : Segment maxFrameBytes s) {x y : Bytes} (hx : s.2 = x ++ y)
    (hlong : 3 ≤ x.length) (hy : y ≠ []) : drain maxFrameBytes (s.1 ++ x) = ([], x) := by
  have hlen : s.2.length = x.length + y.length := by rw [hx, List.length_append]
  have hpos := List.length_pos_iff.2 hy
  have hthree : startMarker.length = 3 := rfl
  have hstart : find startMarker (s.1 ++ x) = some s.1.length := by
    refine (find_eq_some_iff (by decide)).2 ⟨?_, fun j hj hstands => ?_⟩
    · refine (standsAt_append_right (i := 0)).2 ?_
      have := h.shape.starts
      rw [hx, standsAt_append (by omega)] at this
      exact this
    · refine h.junk j hj ?_
      rw [hx, ← List.append_assoc]
      exact hstands.append (by decide)
  have hstop : findFrom 3 endMarker x = none := by
    refine (findFrom_eq_none_iff (by decide)).2 fun i hi hstands => ?_
    have hle := hstands.length_le (by decide)
    have htwo : endMarker.length = 2 := rfl
    have := h.shape.first i hi (hx ▸ hstands.append (by decide))
    omega
  have hfits := h.fits
  rw [drain_eq, hstart]
  simp only [List.drop_left, hstop]
  rw [if_neg (by omega)]

/-- A whole segment: its frame is returned. -/
theorem drain_frame (h : Segment maxFrameBytes s) (rest : Bytes) :
    drain maxFrameBytes (s.1 ++ (s.2 ++ rest)) =
      (s.2 :: (drain maxFrameBytes rest).1, (drain maxFrameBytes rest).2) := by
  have hlong := h.shape.long
  have htwo : endMarker.length = 2 := rfl
  have hstart : find startMarker (s.1 ++ (s.2 ++ rest)) = some s.1.length :=
    (find_eq_some_iff (by decide)).2 ⟨h.shape.start_append rest, fun j hj => h.no_marker hj rest⟩
  have hstop : findFrom 3 endMarker (s.2 ++ rest) = some (s.2.length - 2) := by
    refine (findFrom_eq_some_iff (by decide)).2
      ⟨by omega, h.shape.ends.append (by decide), fun j hj hthree hstands => ?_⟩
    rw [standsAt_append (by omega)] at hstands
    have := h.shape.first j hthree hstands
    omega
  rw [drain_eq, hstart]
  simp only [List.drop_left, hstop, Nat.sub_add_cancel (show 2 ≤ s.2.length by omega),
    List.take_left]
  rw [if_pos h.fits]

/-- A piece of the first junk: all of it goes. -/
theorem drain_junk (h : Segment maxFrameBytes s) {d r : Bytes} (hd : d ++ r = s.1 ++ s.2)
    (hlen : d.length ≤ s.1.length + 2) : drain maxFrameBytes d = ([], []) := by
  refine drain_of_none fun i hstands => ?_
  have hle := hstands.length_le (by decide)
  have hthree : startMarker.length = 3 := rfl
  refine h.junk i (by omega) ?_
  rw [← hd]
  exact hstands.append (by decide)

/-! ## A cut that is not inside a start marker -/

/-- What a parser holds: nothing, or the beginning of the next frame. -/
def Held (buffer : Bytes) : List (Bytes × Bytes) → Prop
  | [] => buffer = []
  | s :: _ => buffer = [] ∨ s.1 = [] ∧ 3 ≤ buffer.length ∧ buffer.length < s.2.length

/-- Where a parser stands behind a cut: the segments that are left begin `k` bytes
further on. -/
structure Resumes (maxFrameBytes : Nat) (segments : List (Bytes × Bytes)) (tail d r : Bytes)
    (segments' : List (Bytes × Bytes)) (tail' : Bytes) (k : Nat) : Prop where
  frames : frames segments = (drain maxFrameBytes d).1 ++ frames segments'
  stream : (drain maxFrameBytes d).2 ++ r = stream segments' tail'
  wellFormed : WellFormed maxFrameBytes segments' tail'
  held : Held (drain maxFrameBytes d).2 segments'
  length : (drain maxFrameBytes d).2.length + k = d.length
  cuts : ∀ n, CutsMarker segments' n ↔ CutsMarker segments (n + k)

theorem drain_stream {d r : Bytes} (h : WellFormed maxFrameBytes segments tail)
    (hsplit : d ++ r = stream segments tail) (hcut : ¬ CutsMarker segments d.length) :
    ∃ segments' tail' k, Resumes maxFrameBytes segments tail d r segments' tail' k := by
  induction segments generalizing d with
  | nil =>
      have hnone : drain maxFrameBytes d = ([], []) := by
        refine drain_of_none fun i hstands => h.tail i ?_
        rw [show tail = d ++ r from hsplit.symm]
        exact hstands.append (by decide)
      refine ⟨[], r, d.length, ?_⟩
      constructor
      · rw [hnone]; rfl
      · rw [hnone]; rfl
      · refine ⟨fun s hs => absurd hs List.not_mem_nil, fun i hstands => h.tail (d.length + i) ?_⟩
        rw [show tail = d ++ r from hsplit.symm]
        exact standsAt_append_right.2 hstands
      · rw [hnone]; rfl
      · rw [hnone]; exact Nat.zero_add _
      · exact fun n => ⟨fun h => absurd h not_cutsMarker_nil, fun h => absurd h not_cutsMarker_nil⟩
  | cons s segments ih =>
      have hs := h.head
      have hlong := hs.shape.long
      simp only [stream] at hsplit
      rw [cutsMarker_cons] at hcut
      by_cases hjunk : d.length ≤ s.1.length
      -- The chunk ends in the junk.
      · obtain ⟨j, hj, hr⟩ := exists_append_of_le hsplit hjunk
        have hnone : drain maxFrameBytes d = ([], []) :=
          drain_junk hs (r := j ++ s.2) (by rw [← List.append_assoc, ← hj]) (by omega)
        have hdrop : s.1.drop d.length = j := by rw [hj, List.drop_left]
        refine ⟨(j, s.2) :: segments, tail, d.length, ?_⟩
        constructor
        · rw [hnone]; rfl
        · rw [hnone]; exact hr
        · exact h.rest.cons (hdrop ▸ hs.drop d.length)
        · rw [hnone]; exact .inl rfl
        · rw [hnone]; exact Nat.zero_add _
        · have hlen : s.1.length = d.length + j.length := by rw [hj, List.length_append]
          exact fun n => cutsMarker_of_length (by omega)
      · by_cases hframe : d.length < s.1.length + s.2.length
        -- The chunk ends in the frame, behind its start marker.
        · obtain ⟨x, hx, hrest⟩ := exists_append_of_le hsplit.symm (by omega)
          subst hx
          rw [List.length_append] at hjunk hframe hcut
          obtain ⟨y, hy, -⟩ := exists_append_of_le hrest.symm (by omega)
          have hylen : s.2.length = x.length + y.length := by rw [hy, List.length_append]
          have hyne : y ≠ [] := by
            rintro rfl
            rw [List.length_nil] at hylen
            omega
          have hlong' : 3 ≤ x.length := by omega
          have hremainder := drain_partial hs hy hlong' hyne
          refine ⟨([], s.2) :: segments, tail, s.1.length, ?_⟩
          constructor
          · rw [hremainder]; rfl
          · rw [hremainder]; exact hrest.symm
          · exact h.rest.cons (by simpa using hs.drop s.1.length)
          · rw [hremainder]; exact .inr ⟨rfl, hlong', by dsimp only; omega⟩
          · rw [hremainder, List.length_append]; exact Nat.add_comm _ _
          · exact fun n => cutsMarker_of_length (Nat.zero_add _)
        -- The chunk completes the segment.
        · rw [← List.append_assoc] at hsplit
          obtain ⟨d', hd', hrest⟩ := exists_append_of_le hsplit.symm
            (by rw [List.length_append]; omega)
          rw [List.append_assoc] at hd'
          subst hd'
          simp only [List.length_append] at hcut
          have hcut' : ¬ CutsMarker segments d'.length := by
            intro hc
            refine hcut (.inr (.inr ⟨by omega, ?_⟩))
            rwa [show s.1.length + (s.2.length + d'.length) - (s.1.length + s.2.length) = d'.length
              by omega]
          obtain ⟨segments', tail', k, hres⟩ := ih h.rest hrest.symm hcut'
          have hwhole := drain_frame hs d'
          refine ⟨segments', tail', s.1.length + s.2.length + k, ?_⟩
          constructor
          · rw [hwhole]
            exact congrArg (s.2 :: ·) hres.frames
          · rw [hwhole]; exact hres.stream
          · exact hres.wellFormed
          · rw [hwhole]; exact hres.held
          · have := hres.length
            simp only [hwhole, List.length_append]
            omega
          · intro n
            rw [hres.cuts, cutsMarker_cons]
            have hsub : n + (s.1.length + s.2.length + k) - (s.1.length + s.2.length) = n + k := by
              omega
            rw [hsub]
            constructor
            · exact fun hc => .inr (.inr ⟨by omega, hc⟩)
            · rintro (hn | hn | ⟨-, hc⟩)
              · omega
              · omega
              · exact hc

/-! ## A cut inside a start marker -/

/-- The frame whose start marker is cut is lost: the parser holds nothing, and the
rest of the frame is still to come. -/
theorem drain_cut {d r : Bytes} (h : WellFormed maxFrameBytes segments tail)
    (hsplit : d ++ r = stream segments tail) (hcut : CutsMarker segments d.length) :
    ∃ f segments' z y, frames segments = (drain maxFrameBytes d).1 ++ f :: frames segments' ∧
      (drain maxFrameBytes d).2 = [] ∧ WellFormed maxFrameBytes (([], f) :: segments') tail ∧
      f = z ++ y ∧ z ≠ [] ∧ r = y ++ stream segments' tail := by
  induction segments generalizing d with
  | nil => exact absurd hcut not_cutsMarker_nil
  | cons s segments ih =>
      have hs := h.head
      have hlong := hs.shape.long
      simp only [stream] at hsplit
      have hlost : d.length = s.1.length + 1 ∨ d.length = s.1.length + 2 →
          ∃ f segments' z y,
            frames (s :: segments) = (drain maxFrameBytes d).1 ++ f :: frames segments' ∧
            (drain maxFrameBytes d).2 = [] ∧ WellFormed maxFrameBytes (([], f) :: segments') tail ∧
            f = z ++ y ∧ z ≠ [] ∧ r = y ++ stream segments' tail := by
        intro hlen
        obtain ⟨z, rfl, hrest⟩ := exists_append_of_le hsplit.symm (by omega)
        rw [List.length_append] at hlen
        obtain ⟨y, hy, hr⟩ := exists_append_of_le hrest.symm (by omega)
        have hnone : drain maxFrameBytes (s.1 ++ z) = ([], []) :=
          drain_junk hs (r := y) (by rw [hy, List.append_assoc]) (by rw [List.length_append]; omega)
        refine ⟨s.2, segments, z, y, by rw [hnone]; rfl, by rw [hnone], ?_, hy, ?_, hr⟩
        · exact h.rest.cons (by simpa using hs.drop s.1.length)
        · rintro rfl
          simp at hlen
      rcases cutsMarker_cons.1 hcut with hlen | hlen | ⟨hle, hcut'⟩
      · exact hlost (.inl hlen)
      · exact hlost (.inr hlen)
      · rw [← List.append_assoc] at hsplit
        obtain ⟨d', hd', hrest⟩ := exists_append_of_le hsplit.symm
          (by rw [List.length_append]; exact hle)
        rw [List.append_assoc] at hd'
        subst hd'
        have hlen : (s.1 ++ (s.2 ++ d')).length - (s.1.length + s.2.length) = d'.length := by
          simp only [List.length_append]
          omega
        rw [hlen] at hcut'
        obtain ⟨f, segments', z, y, hframes, hempty, hwf, hf, hz, hr⟩ := ih h.rest hrest.symm hcut'
        refine ⟨f, segments', z, y, ?_, ?_, hwf, hf, hz, hr⟩
        · rw [drain_frame hs]
          exact congrArg (s.2 :: ·) hframes
        · rw [drain_frame hs]
          exact hempty

/-- Pieces that have the shape of a frame, one behind the other. -/
inductive Scans : Bytes → List Bytes → Prop where
  | nil (l : Bytes) : Scans l []
  | skip (b : UInt8) {l : Bytes} {out : List Bytes} (h : Scans l out) : Scans (b :: l) out
  | take {e l : Bytes} {out : List Bytes} (he : Shape e) (h : Scans l out) :
      Scans (e ++ l) (e :: out)

theorem Scans.skips {l : Bytes} {out : List Bytes} (h : Scans l out) (dropped : Bytes) :
    Scans (dropped ++ l) out := by
  induction dropped with
  | nil => exact h
  | cons b dropped ih => exact ih.skip b

/-- The first piece, and what came before it. -/
theorem Scans.cons_inv {l e : Bytes} {out : List Bytes} (h : Scans l (e :: out)) :
    ∃ dropped l', l = dropped ++ (e ++ l') ∧ Shape e ∧ Scans l' out := by
  generalize ho : e :: out = all at h
  induction h with
  | nil => cases ho
  | skip b h ih =>
      obtain ⟨dropped, l', rfl, he, hl'⟩ := ih ho
      exact ⟨b :: dropped, l', rfl, he, hl'⟩
  | take he h =>
      cases ho
      exact ⟨[], _, rfl, he, h⟩

/-- What stands from a start marker up to the first end marker is a frame. -/
theorem shape_take {l : Bytes} {stop : Nat} (hstands : StandsAt startMarker l 0)
    (hstop : findFrom 3 endMarker l = some stop) : Shape (l.take (stop + 2)) := by
  obtain ⟨hthree, hends, hfirst⟩ := (findFrom_eq_some_iff (by decide)).1 hstop
  have hle := hends.length_le (by decide)
  have htwo : endMarker.length = 2 := rfl
  have hthree' : startMarker.length = 3 := rfl
  have htake : (l.take (stop + 2)).length = stop + 2 := by
    rw [List.length_take]
    omega
  -- A mark stands in the piece if it stands there in the list.
  have hinside : ∀ (pat : Bytes) i, i + pat.length ≤ stop + 2 →
      (StandsAt pat (l.take (stop + 2)) i ↔ StandsAt pat l i) := by
    intro pat i hi
    rw [← standsAt_append (l := l.take (stop + 2)) (by omega), List.take_append_drop]
  refine ⟨(hinside _ _ (by omega)).2 hstands, by omega, ?_, fun i hi hstands' => ?_⟩
  · rw [htake, Nat.add_sub_cancel]
    exact (hinside _ _ (by omega)).2 hends
  · have hle' := hstands'.length_le (by decide)
    rw [hinside _ _ (by omega)] at hstands'
    by_contra hlt
    exact hfirst i (by omega) hi hstands'

/-- What a parser returns for a buffer are such pieces. -/
theorem scans_drain {buffer l : Bytes} {out : List Bytes}
    (h : Scans ((drain maxFrameBytes buffer).2 ++ l) out) :
    Scans (buffer ++ l) ((drain maxFrameBytes buffer).1 ++ out) := by
  induction hlen : buffer.length using Nat.strongRecOn generalizing buffer with
  | ind n ih =>
      rw [drain_eq] at h ⊢
      cases hstart : find startMarker buffer with
      | none =>
          rw [hstart] at h
          exact Scans.skips h buffer
      | some start =>
          rw [hstart] at h
          dsimp only at h ⊢
          have hcut : buffer ++ l = buffer.take start ++ (buffer.drop start ++ l) := by
            rw [← List.append_assoc, List.take_append_drop]
          rw [hcut]
          refine Scans.skips ?_ _
          have hstands := ((find_eq_some_iff (by decide)).1 hstart).1
          rw [← Nat.add_zero start, ← standsAt_drop] at hstands
          cases hstop : findFrom 3 endMarker (buffer.drop start) with
          | none =>
              rw [hstop] at h
              dsimp only at h ⊢
              split at h
              next => exact Scans.skips h _
              next => exact h
          | some stop =>
              rw [hstop] at h
              dsimp only at h ⊢
              have hsmaller : ((buffer.drop start).drop (stop + 2)).length < n := by
                have hle := ((findFrom_eq_some_iff (by decide)).1 hstop).2.1.length_le (by decide)
                have htwo : endMarker.length = 2 := rfl
                simp only [List.length_drop] at hle ⊢
                omega
              have hrest := ih _ hsmaller h rfl
              have hpiece : buffer.drop start ++ l = (buffer.drop start).take (stop + 2) ++
                  ((buffer.drop start).drop (stop + 2) ++ l) := by
                rw [← List.append_assoc, List.take_append_drop]
              rw [hpiece]
              split
              next => exact .take (shape_take hstands hstop) hrest
              next => exact Scans.skips hrest _

theorem scans_feedAll (buffer : Bytes) (chunks : List Bytes) :
    Scans (buffer ++ chunks.flatten) (feedAll maxFrameBytes buffer chunks) := by
  induction chunks generalizing buffer with
  | nil => exact .nil _
  | cons chunk chunks ih =>
      rw [feedAll, List.flatten_cons]
      have hrest := ih (feed maxFrameBytes buffer chunk).2
      unfold feed at hrest ⊢
      split
      next hempty =>
        rw [if_pos hempty] at hrest
        subst hempty
        exact hrest
      next hne =>
        rw [if_neg hne] at hrest
        rw [← List.append_assoc]
        exact scans_drain hrest

/-- A piece that begins in the first segment reaches to the end of it. -/
theorem length_le_of_piece {e l y : Bytes} (hs : Segment maxFrameBytes s) (he : Shape e)
    (hy : y <:+ s.1 ++ s.2) (hne : y ≠ []) (hsplit : e ++ l = y ++ stream segments tail) :
    y.length ≤ e.length := by
  obtain ⟨x, hx⟩ := hy
  have hpos := List.length_pos_iff.2 hne
  have hlong := he.long
  have hxy : x.length + y.length = s.1.length + s.2.length := by
    rw [← List.length_append, hx, List.length_append]
  have hbehind : x.length ≥ s.1.length := by
    by_contra hlt
    refine hs.no_marker (i := x.length) (by omega) (stream segments tail) ?_
    rw [← List.append_assoc, ← hx, List.append_assoc, ← hsplit]
    exact (standsAt_append_right (i := 0)).2 (he.starts.append (by decide))
  by_contra hlt
  obtain ⟨y', hy', -⟩ := exists_append_of_le hsplit (by omega)
  -- The piece would end inside the frame, at an end marker before its last one.
  have hends : StandsAt endMarker (s.1 ++ s.2) (x.length + (e.length - 2)) := by
    rw [← hx, hy']
    exact standsAt_append_right.2 (he.ends.append (by decide))
  rw [show x.length + (e.length - 2) = s.1.length + (x.length - s.1.length + (e.length - 2)) by omega,
    standsAt_append_right] at hends
  have := hs.shape.first _ (by omega) hends
  omega

/-- Each piece of a stream begins in another frame. -/
theorem Scans.length_le {l : Bytes} {out : List Bytes}
    (h : WellFormed maxFrameBytes segments tail) (hl : l <:+ stream segments tail)
    (hscans : Scans l out) : out.length ≤ segments.length := by
  induction segments generalizing l out with
  | nil =>
      cases out with
      | nil => exact Nat.le_refl _
      | cons e out =>
          obtain ⟨dropped, l', rfl, he, -⟩ := hscans.cons_inv
          obtain ⟨x, hx⟩ := hl
          refine absurd ?_ (h.tail ((x ++ dropped).length + 0))
          rw [show tail = x ++ dropped ++ (e ++ l') by rw [List.append_assoc]; exact hx.symm]
          exact standsAt_append_right.2 (he.starts.append (by decide))
  | cons s segments ih =>
      cases out with
      | nil => exact Nat.zero_le _
      | cons e out =>
          obtain ⟨dropped, l', rfl, he, hl'⟩ := hscans.cons_inv
          obtain ⟨x, hx⟩ := hl
          have hx : (x ++ dropped) ++ (e ++ l') = (s.1 ++ s.2) ++ stream segments tail := by
            simpa only [stream, List.append_assoc] using hx
          by_cases hlen : (s.1 ++ s.2).length ≤ (x ++ dropped).length
          -- The piece begins behind the first segment.
          · obtain ⟨w, -, hw⟩ := exists_append_of_le hx.symm hlen
            have := ih h.rest ⟨w, hw.symm⟩ (Scans.take he hl')
            exact Nat.le_succ_of_le this
          · obtain ⟨y, hy, hsplit⟩ := exists_append_of_le hx (by omega)
            have hyne : y ≠ [] := by
              rintro rfl
              rw [List.append_nil] at hy
              rw [hy] at hlen
              omega
            have hle := length_le_of_piece h.head he ⟨_, hy.symm⟩ hyne hsplit
            obtain ⟨w, -, hw⟩ := exists_append_of_le hsplit.symm hle
            have := ih h.rest ⟨w, hw.symm⟩ hl'
            exact Nat.succ_le_succ this

/-- A frame that begins again in itself behind its first byte begins with
`FF D8 FF D9` and ends with it, eight bytes or more. -/
theorem overlap {f y w z : Bytes} (hf : Shape f) (hyw : f = y ++ w) (hzy : f = z ++ y)
    (hy : y ≠ []) (hw : w ≠ []) :
    y.length = 4 ∧ 8 ≤ f.length ∧ StandsAt startMarker w (w.length - 4) := by
  have hylen := List.length_pos_iff.2 hy
  have hwlen := List.length_pos_iff.2 hw
  have hlong := hf.long
  have hlen₁ : f.length = y.length + w.length := by rw [hyw, List.length_append]
  have hlen₂ : f.length = z.length + y.length := by rw [hzy, List.length_append]
  obtain ⟨rest, hrest⟩ : ∃ rest, f = 0xff :: 0xd8 :: 0xff :: rest := by
    obtain ⟨rest, hrest⟩ := hf.starts
    exact ⟨rest, hrest.symm⟩
  have hend : f.drop (f.length - 2) = [0xff, 0xd9] := by
    refine (List.IsPrefix.eq_of_length hf.ends ?_).symm
    rw [List.length_drop]
    exact (show 2 = f.length - (f.length - 2) by omega)
  -- The last two bytes of `y` are those of the frame.
  have hyend : 2 ≤ y.length → y.drop (y.length - 2) = [0xff, 0xd9] := by
    intro htwo
    rw [← hend]
    conv_rhs => rw [hzy]
    rw [List.length_append, show z.length + y.length - 2 = z.length + (y.length - 2) by omega,
      List.drop_append, List.drop_eq_nil_of_le (Nat.le_add_right _ _), List.nil_append,
      Nat.add_sub_cancel_left]
  have hfour : y.length = 4 := by
    have hytake : y = f.take y.length := by conv_rhs => rw [hyw, List.take_left]
    rw [hrest] at hytake
    by_contra hne
    by_cases hlt : y.length < 4
    · rcases (by omega : y.length = 1 ∨ y.length = 2 ∨ y.length = 3) with h | h | h
      · have hlast : f.drop (f.length - 1) = [0xd9] := by
          rw [show f.length - 1 = f.length - 2 + 1 by omega, ← List.drop_drop, hend]
          rfl
        have hy₁ : f.drop (f.length - 1) = y := by
          rw [show f.length - 1 = z.length by omega]
          conv_lhs => rw [hzy, List.drop_left]
        rw [h] at hytake
        rw [hlast, hytake] at hy₁
        simp at hy₁
      · have := hyend (by omega)
        rw [h] at hytake this
        rw [hytake] at this
        simp at this
      · have := hyend (by omega)
        rw [h] at hytake this
        rw [hytake] at this
        simp at this
    · have hstands : StandsAt endMarker f (y.length - 2) := by
        rw [hyw]
        refine StandsAt.append ?_ (by decide)
        rw [StandsAt, hyend (by omega)]
        exact List.prefix_rfl
      have := hf.first _ (by omega) hstands
      omega
  obtain ⟨more, hmore⟩ : ∃ more, f = 0xff :: 0xd8 :: 0xff :: 0xd9 :: more := by
    have htake : f.take 4 = y := by rw [hyw, ← hfour, List.take_left]
    have hy₄ := hyend (by omega)
    rw [hfour, ← htake, hrest] at hy₄
    cases rest with
    | nil => simp at hy₄
    | cons b rest =>
        simp only [List.take_succ_cons, List.take_zero, Nat.reduceSub, List.drop_succ_cons,
          List.drop_zero, List.cons.injEq, and_true, true_and] at hy₄
        exact ⟨rest, by rw [hrest, hy₄]⟩
  have hy₀ : y = [0xff, 0xd8, 0xff, 0xd9] := by
    have htake : f.take 4 = y := by rw [hyw, ← hfour, List.take_left]
    rw [← htake, hmore]
    rfl
  have height : 8 ≤ f.length := by
    have hz : f.drop z.length = y := by conv_lhs => rw [hzy, List.drop_left]
    by_contra hlt
    rcases (by omega : z.length = 1 ∨ z.length = 2 ∨ z.length = 3) with h | h | h
    · rw [h, hmore, hy₀] at hz
      simp at hz
    · rw [h, hmore, hy₀] at hz
      simp at hz
    · rw [h, hmore, hy₀] at hz
      simp at hz
  refine ⟨hfour, height, ?_⟩
  have hz : f.drop z.length = y := by conv_lhs => rw [hzy, List.drop_left]
  rw [hyw, List.drop_append, List.drop_eq_nil_of_le (by omega), List.nil_append] at hz
  rw [StandsAt, show w.length - 4 = z.length - y.length by omega, hz, hy₀]
  exact ⟨[0xd9], rfl⟩

/-- A frame that stands in what is left of itself and what follows. -/
theorem exists_overlap {f z y dropped l' rest : Bytes} (hf : f = z ++ y) (hz : z ≠ [])
    (hsplit : y ++ rest = dropped ++ (f ++ l')) (hlen : dropped.length < y.length) :
    ∃ y' w, f = y' ++ w ∧ f = (z ++ dropped) ++ y' ∧ y' ≠ [] ∧ w ≠ [] ∧ rest = w ++ l' := by
  obtain ⟨y', hy', hsplit'⟩ := exists_append_of_le hsplit.symm (by omega)
  have hzy : f = (z ++ dropped) ++ y' := by rw [hf, hy', List.append_assoc]
  have hlt : y'.length < f.length := by
    have := List.length_pos_iff.2 hz
    rw [hzy, List.length_append, List.length_append]
    omega
  obtain ⟨w, hw, hrest⟩ := exists_append_of_le hsplit'.symm (by omega)
  refine ⟨y', w, hw, hzy, ?_, ?_, hrest⟩
  · rintro rfl
    rw [List.append_nil] at hy'
    rw [hy'] at hlen
    omega
  · rintro rfl
    rw [List.append_nil] at hw
    rw [hw] at hlt
    omega

/-- There is no piece more than there are frames. -/
theorem not_scans_cons {l e : Bytes} (h : WellFormed maxFrameBytes segments tail)
    (hl : l <:+ stream segments tail) : ¬ Scans l (e :: frames segments) := by
  intro hscans
  have hfew := hscans.length_le h hl
  rw [List.length_cons, frames, List.length_map] at hfew
  exact Nat.not_succ_le_self _ hfew

/-- What comes behind the first byte of a frame does not make up the frames. -/
theorem not_scans_frames {f z y : Bytes}
    (h : WellFormed maxFrameBytes (([], f) :: segments) tail) (hf : f = z ++ y) (hz : z ≠ []) :
    ¬ Scans (y ++ stream segments tail) (f :: frames segments) := by
  induction segments generalizing f z y with
  | nil =>
      intro hscans
      obtain ⟨dropped, l', hsplit, he, hl'⟩ := hscans.cons_inv
      by_cases hlen : y.length ≤ dropped.length
      · obtain ⟨x, -, hx⟩ := exists_append_of_le hsplit hlen
        exact not_scans_cons h.rest ⟨x, hx.symm⟩ (Scans.take he hl')
      · obtain ⟨y', w, hw, hzy, hy'ne, hwne, hrest⟩ := exists_overlap hf hz hsplit (by omega)
        refine h.tail (w.length - 4) ?_
        rw [show tail = w ++ l' from hrest]
        exact (overlap he hw hzy hy'ne hwne).2.2.append (by decide)
  | cons s segments ih =>
      intro hscans
      obtain ⟨dropped, l', hsplit, he, hl'⟩ := hscans.cons_inv
      by_cases hlen : y.length ≤ dropped.length
      · obtain ⟨x, -, hx⟩ := exists_append_of_le hsplit hlen
        exact not_scans_cons h.rest ⟨x, hx.symm⟩ (Scans.take he hl')
      · obtain ⟨y', w, hw, hzy, hy'ne, hwne, hrest⟩ := exists_overlap hf hz hsplit (by omega)
        obtain ⟨hfour, height, hstands⟩ := overlap he hw hzy hy'ne hwne
        have hwlen : f.length = y'.length + w.length := by rw [hw, List.length_append]
        rw [stream, ← List.append_assoc] at hrest
        -- The first piece ends behind the beginning of the next frame.
        have hbehind : s.1.length ≤ w.length - 4 := by
          by_contra hbefore
          refine h.rest.head.no_marker (i := w.length - 4) (by omega) (stream segments tail) ?_
          rw [← List.append_assoc, hrest]
          exact hstands.append (by decide)
        by_cases hinside : w.length ≤ (s.1 ++ s.2).length
        · obtain ⟨y₂, hy₂, hl₂⟩ := exists_append_of_le hrest.symm hinside
          obtain ⟨z₂, hz₂, hf₂⟩ := exists_append_of_le hy₂ (Nat.le_trans hbehind (Nat.sub_le _ _))
          have hz₂ne : z₂ ≠ [] := by
            rintro rfl
            rw [List.append_nil] at hz₂
            have hshort := congrArg List.length hz₂
            omega
          have hwf : WellFormed maxFrameBytes (([], s.2) :: segments) tail :=
            h.rest.rest.cons (by simpa using h.rest.head.drop s.1.length)
          exact ih hwf hf₂ hz₂ne (hl₂ ▸ hl')
        · obtain ⟨x, -, hx⟩ := exists_append_of_le hrest (by omega)
          exact not_scans_cons h.rest.rest ⟨x, hx.symm⟩ hl'

/-! ## Any chunks -/

/-- A parser that holds the beginning of a stream at most. -/
theorem feedAll_eq_frames_of_held {buffer : Bytes} {chunks : List Bytes}
    (h : WellFormed maxFrameBytes segments tail) (hheld : Held buffer segments)
    (hsplit : buffer ++ chunks.flatten = stream segments tail) :
    feedAll maxFrameBytes buffer chunks = frames segments ↔
      ∀ before after, chunks = before ++ after → before ≠ [] →
        ¬ CutsMarker segments (buffer.length + before.flatten.length) := by
  induction chunks generalizing buffer segments tail with
  | nil =>
      have hnil : segments = [] := by
        cases segments with
        | nil => rfl
        | cons s segments =>
            have hlong := h.head.shape.long
            have hlen := congrArg List.length hsplit
            simp only [List.flatten_nil, List.append_nil, stream, List.length_append] at hlen
            rcases hheld with rfl | ⟨-, -, hlt⟩
            · simp only [List.length_nil] at hlen
              omega
            · omega
      subst hnil
      exact ⟨fun _ before after _ _ => not_cutsMarker_nil, fun _ => rfl⟩
  | cons chunk chunks ih =>
      by_cases hempty : chunk = []
      -- An empty chunk is ignored, and there is no cut behind it that was not there before.
      · subst hempty
        have hfeed : feedAll maxFrameBytes buffer ([] :: chunks) =
            feedAll maxFrameBytes buffer chunks := by simp [feedAll, feed]
        rw [hfeed, ih h hheld hsplit]
        constructor
        · intro hno before after hchunks hne hcut
          cases before with
          | nil => exact hne rfl
          | cons c before =>
              obtain ⟨rfl, rfl⟩ := List.cons.inj hchunks
              cases before with
              | nil =>
                  rw [List.flatten_cons, List.flatten_nil, List.nil_append, List.length_nil,
                    Nat.add_zero] at hcut
                  cases segments with
                  | nil => exact not_cutsMarker_nil hcut
                  | cons s segments =>
                      rcases hheld with rfl | ⟨hjunk, hthree, hlt⟩
                      · rcases cutsMarker_cons.1 hcut with hn | hn | ⟨hle, -⟩
                        · simp at hn
                        · simp at hn
                        · have := h.head.shape.long
                          simp only [List.length_nil] at hle
                          omega
                      · rcases cutsMarker_cons.1 hcut with hn | hn | ⟨hle, -⟩
                        · rw [hjunk, List.length_nil] at hn
                          omega
                        · rw [hjunk, List.length_nil] at hn
                          omega
                        · omega
              | cons c before => exact hno (c :: before) after rfl (by simp) (by simpa using hcut)
        · intro hno before after hchunks hne
          have := hno ([] :: before) after (by rw [hchunks]; rfl) (by simp)
          simpa using this
      · rw [List.flatten_cons, ← List.append_assoc] at hsplit
        have hfeed : feedAll maxFrameBytes buffer (chunk :: chunks) =
            (drain maxFrameBytes (buffer ++ chunk)).1 ++
              feedAll maxFrameBytes (drain maxFrameBytes (buffer ++ chunk)).2 chunks := by
          simp [feedAll, feed, hempty]
        rw [hfeed]
        by_cases hcut : CutsMarker segments (buffer ++ chunk).length
        -- The cut behind this chunk loses a frame.
        · refine iff_of_false (fun hall => ?_) fun hno => ?_
          · obtain ⟨f, segments', z, y, hframes, hnothing, hwf, hf, hz, hr⟩ := drain_cut h hsplit hcut
            rw [hframes, hnothing] at hall
            have hscans := @scans_feedAll maxFrameBytes [] chunks
            rw [List.append_cancel_left hall, List.nil_append, hr] at hscans
            exact not_scans_frames hwf hf hz hscans
          · refine hno [chunk] chunks rfl (by simp) ?_
            rw [List.flatten_singleton, ← List.length_append]
            exact hcut
        · obtain ⟨segments', tail', k, hres⟩ := drain_stream h hsplit hcut
          rw [hres.frames, List.append_cancel_left_eq, ih hres.wellFormed hres.held hres.stream]
          have hlen := hres.length
          rw [List.length_append] at hlen
          constructor
          · intro hno before after hchunks hne hcut'
            cases before with
            | nil => exact hne rfl
            | cons c before =>
                obtain ⟨rfl, rfl⟩ := List.cons.inj hchunks
                rw [List.flatten_cons, List.length_append] at hcut'
                cases before with
                | nil =>
                    refine hcut ?_
                    rw [List.length_append]
                    simpa using hcut'
                | cons c' before =>
                    refine hno (c' :: before) after rfl (by simp) ((hres.cuts _).2 ?_)
                    rwa [show (drain maxFrameBytes (buffer ++ chunk)).2.length +
                      (c' :: before).flatten.length + k = buffer.length +
                        (chunk.length + (c' :: before).flatten.length) by omega]
          · intro hno before after hchunks hne hcut'
            refine hno (chunk :: before) after (by rw [hchunks]; rfl) (by simp) ?_
            have := (hres.cuts _).1 hcut'
            rwa [List.flatten_cons, List.length_append, show buffer.length +
              (chunk.length + before.flatten.length) = (drain maxFrameBytes (buffer ++ chunk)).2.length +
                before.flatten.length + k by omega]

/-- The frames of a stream are returned for its chunks, whatever the chunks are,
exactly if none of them ends behind the first or the second byte of a frame. -/
theorem feedAll_eq_frames_iff (maxFrameBytes : Nat) (segments : List (Bytes × Bytes)) (tail : Bytes)
    (chunks : List Bytes) (h : WellFormed maxFrameBytes segments tail)
    (hchunks : chunks.flatten = stream segments tail) :
    feedAll maxFrameBytes [] chunks = frames segments ↔
      ∀ before after, chunks = before ++ after → ¬ CutsMarker segments before.flatten.length := by
  rw [feedAll_eq_frames_of_held h (by cases segments <;> simp [Held]) (by simpa using hchunks)]
  constructor
  · intro hno before after hsplit hcut
    cases before with
    | nil =>
        cases segments with
        | nil => exact not_cutsMarker_nil hcut
        | cons s segments =>
            have hlong := h.head.shape.long
            rcases cutsMarker_cons.1 hcut with hn | hn | ⟨hle, -⟩
            · simp at hn
            · simp at hn
            · simp only [List.flatten_nil, List.length_nil] at hle
              omega
    | cons c before => exact hno (c :: before) after hsplit (by simp) (by simpa using hcut)
  · intro hno before after hsplit _ hcut
    exact hno before after hsplit (by simpa using hcut)

/-- A frame of six bytes, without junk. -/
def smallFrame : Bytes := [0xff, 0xd8, 0xff, 0x00, 0xff, 0xd9]

theorem wellFormed_smallFrame : WellFormed 100 [([], smallFrame)] [] where
  segment s hs := by
    cases List.mem_singleton.1 hs
    refine ⟨⟨by decide, by decide, by decide, fun i hi hstands => ?_⟩, by decide, fun i hi => ?_⟩
    · by_contra hlt
      have hle : i < 4 := by
        have : smallFrame.length = 6 := rfl
        dsimp only at hlt
        omega
      obtain rfl : i = 3 := by omega
      exact absurd hstands (by decide)
    · exact absurd hi (Nat.not_lt_zero i)
  tail i hstands := by
    have := hstands.length_le (by decide)
    have hthree : startMarker.length = 3 := rfl
    rw [List.length_nil] at this
    omega

/-- A cut behind the start marker. -/
theorem feedAll_eq_frames_cut :
    feedAll 100 [] [[0xff, 0xd8, 0xff], [0x00, 0xff, 0xd9]] = frames [([], smallFrame)] ↔
      ∀ before after : List Bytes, [[0xff, 0xd8, 0xff], [0x00, 0xff, 0xd9]] = before ++ after →
        ¬ CutsMarker [([], smallFrame)] before.flatten.length :=
  feedAll_eq_frames_iff 100 [([], smallFrame)] [] [[0xff, 0xd8, 0xff], [0x00, 0xff, 0xd9]]
    wellFormed_smallFrame rfl

/-- The first byte alone in a chunk: the frame is not returned. -/
theorem frame_lost_at_cut :
    ¬ ∀ (maxFrameBytes : Nat) (segments : List (Bytes × Bytes)) (tail : Bytes) (chunks : List Bytes),
      WellFormed maxFrameBytes segments tail → (∀ chunk ∈ chunks, chunk ≠ []) →
      chunks.flatten = stream segments tail →
      feedAll maxFrameBytes [] chunks = frames segments := by
  intro h
  have hall := h 100 [([], smallFrame)] [] [[0xff], [0xd8, 0xff, 0x00, 0xff, 0xd9]]
    wellFormed_smallFrame (by decide) rfl
  exact absurd hall (by decide)

end JpegStreamParser

end GateController
