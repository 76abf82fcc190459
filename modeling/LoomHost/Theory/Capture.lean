import LoomHost.Core.Capture
import LoomHost.Lib.LatestValue
import LoomHost.Theory.Convert
import LoomHost.Theory.Nv12

/-!
# What the Capture Slot Shows

A conversion overwrites the whole frame, so that it does not matter which of the two
recycled buffers a sample is written into. What `fill` copies is then the sample
converted last, in every run of the PipeWire backend.

ScreenCaptureKit has one more way to publish. A pixel buffer that is locked but has
no base address for one of its planes is not converted, and its buffer is
published all the same: the spare, which holds the sample before the last, or a
frame of zeros. A run without such buffers shows what was converted last.

The guard of `onProcess` asks for one row of the frame, and the conversion reads all
of them.

## Main definitions

* `Sck.Action`, `Sck.step`: A run of ScreenCaptureKit.
* `Sck.Headless`: A pixel buffer that is locked and lacks a plane address.
* `Stream.Action`, `Stream.step`: A run of PipeWire.
* `Stream.Safe`: The chunks that `onProcess` can take.

## Theorems

* `Sck.publish_honest`, `Stream.process_honest`: What one callback does to the slot.
* `capture_fresh`: What is shown was converted last.
* `Sck.stale_frame_shown`: A frame that comes back after a later one.
* `Stream.onProcess_isSome_iff`: When the PipeWire callback does not panic.
* `Stream.one_row_guard`: A buffer of one row passes the guard and panics.
-/

namespace LoomHost

namespace Capture

open LatestValue

/-- The pixels in a slot. -/
def view {size : UInt32 × UInt32} (slot : Option (SizedFrame size)) : Option (List UInt8) :=
  slot.map fun frame => frame.1.data

/-- The pixels a conversion makes, in a frame of zeros. -/
def pixels (size : UInt32 × UInt32) (convert : I420Buffer → Option I420Buffer) :
    Option (List UInt8) :=
  (convert (I420Buffer.zeroed size.1 size.2)).map fun f => f.data

/-- A conversion that does not look at its frame makes these pixels in any. -/
theorem pixels_of_write {size : UInt32 × UInt32} {frame frame' : SizedFrame size}
    {convert : I420Buffer → Option I420Buffer}
    {hkeep : ∀ f g, convert f = some g → g.dimensions = f.dimensions}
    (hcongr : ∀ f f' g, f'.dimensions = f.dimensions → convert f = some g → convert f' = some g)
    (h : frame.write convert hkeep = some frame') : pixels size convert = some frame'.1.data := by
  have hconvert := SizedFrame.write_eq_some.mp h
  have hblank := hcongr frame.1 (I420Buffer.zeroed size.1 size.2) frame'.1 frame.2.symm hconvert
  rw [pixels, hblank, Option.map_some]

/-- A fill that reports a frame has copied its pixels. -/
theorem fill_eq_some {size : UInt32 × UInt32} {slot : Option (SizedFrame size)}
    {dst dst' : I420Buffer} {shown : Bool} (h : fill slot dst = some (shown, dst')) :
    (if shown then some dst'.data else none) = view slot := by
  cases slot with
  | none =>
      rw [fill, Option.some.injEq, Prod.mk.injEq] at h
      rw [← h.1]
      rfl
  | some frame =>
      rw [fill, Option.map_eq_some_iff] at h
      rcases h with ⟨f, hcopy, heq⟩
      rw [Prod.mk.injEq] at heq
      rcases heq with ⟨rfl, rfl⟩
      rw [if_pos rfl, view, Option.map_some]
      unfold I420Buffer.copyInto at hcopy
      split at hcopy
      · cases hcopy
        rfl
      · cases hcopy

namespace Sck

/-- The pixels a sample converts to, if both planes of a pixel buffer can be read. -/
def converted (size : UInt32 × UInt32) (screen : Bool) (sample : SampleBuffer) :
    Option (List UInt8) :=
  match sample.imageBuffer with
  | none => none
  | some buffer =>
      if screen && buffer.lockable then
        match buffer.y.base, buffer.uv.base with
        | some y, some uv =>
            pixels size (Nv12.toI420 y buffer.y.bytesPerRow uv buffer.uv.bytesPerRow)
        | _, _ => none
      else none

/-- What happens to the slot: a sample buffer is delivered, or a frame is copied
    out. -/
inductive Action where
  | deliver (screen : Bool) (sample : SampleBuffer)
  | fill (dst : I420Buffer)

/-- One action, with what it writes or shows. -/
def step (ivars : OutputIvars) : Action → Option (OutputIvars × List (Event (List UInt8)))
  | .deliver screen sample =>
      (didOutputSampleBuffer screen sample ivars).map fun ivars' =>
        (ivars', ((converted ivars.size screen sample).map Event.wrote).toList)
  | .fill dst =>
      (Capture.fill ivars.slot dst).map fun shown =>
        (ivars, [.shown (if shown.1 then some shown.2.data else none)])

/-- A sample whose pixel buffer has the right format and is locked, but has no base
    address for one of its planes. -/
def Headless (sample : SampleBuffer) : Prop :=
  ∃ buffer, sample.imageBuffer = some buffer ∧ buffer.lockable = true ∧
    (buffer.y.base = none ∨ buffer.uv.base = none)

/-- What a sample of the screen does to the slot. -/
theorem publish_honest {sample : SampleBuffer} {ivars ivars' : OutputIvars}
    (hplanes : ¬ Headless sample) (h : publish sample ivars = some ivars') :
    Honest (fun s : OutputIvars => view s.slot) ivars ivars'
      ((converted ivars.size true sample).map Event.wrote).toList := by
  unfold publish at h
  unfold converted
  cases himage : sample.imageBuffer with
  | none =>
      rw [himage] at h
      cases h
      exact Honest.silent rfl
  | some buffer =>
      rw [himage] at h
      rcases Option.bind_eq_some_iff.mp h with ⟨frame, _, hrest⟩
      by_cases hformat : buffer.format = VIDEO_RANGE_420
      · rw [if_neg (not_not.mpr hformat)] at hrest
        by_cases hlock : buffer.lockStatus = 0
        · rw [if_neg (not_not.mpr hlock)] at hrest
          have hlockable : buffer.lockable = true := by
            simp only [ImageBuffer.lockable, hformat, hlock, beq_self_eq_true, Bool.and_self]
          rcases Option.bind_eq_some_iff.mp hrest with ⟨frame', hconvert, hivars⟩
          cases hivars
          cases hy : buffer.y.base with
          -- What is published without its planes is what the scratch held.
          | none => exact absurd ⟨buffer, himage, hlockable, Or.inl hy⟩ hplanes
          | some y =>
              cases huv : buffer.uv.base with
              | none => exact absurd ⟨buffer, himage, hlockable, Or.inr huv⟩ hplanes
              | some uv =>
                  simp only [convert, hy, huv] at hconvert
                  have hpixels := pixels_of_write
                    (fun f f' g hdim hf => Nv12.toI420_congr hdim hf) hconvert
                  simp only [hlockable, Bool.and_self, if_true, hy, huv, hpixels, Option.map_some,
                    Option.toList_some]
                  exact Honest.wrote _ rfl
        · -- The lock failed, and the spare is lost.
          rw [if_pos hlock] at hrest
          cases hrest
          have hnot : buffer.lockable = false := by
            simp only [ImageBuffer.lockable, beq_false_of_ne hlock, Bool.and_false]
          simp only [hnot, Bool.and_false, Bool.false_eq_true, if_false]
          exact Honest.silent rfl
      · -- So it is if the format is another.
        rw [if_pos hformat] at hrest
        cases hrest
        have hnot : buffer.lockable = false := by
          simp only [ImageBuffer.lockable, beq_false_of_ne hformat, Bool.false_and]
        simp only [hnot, Bool.and_false, Bool.false_eq_true, if_false]
        exact Honest.silent rfl

/-- A sample that is not of the screen, or has its planes, is written as it should be. -/
theorem step_honest {a : Action}
    (ha : ∀ sample, a = .deliver true sample → ¬ Headless sample) {ivars ivars' : OutputIvars}
    {events : List (Event (List UInt8))} (h : step ivars a = some (ivars', events)) :
    Honest (fun s : OutputIvars => view s.slot) ivars ivars' events := by
  cases a with
  | deliver screen sample =>
      rw [step, Option.map_eq_some_iff] at h
      rcases h with ⟨next, hnext, heq⟩
      rw [Prod.mk.injEq] at heq
      rcases heq with ⟨rfl, rfl⟩
      cases screen with
      | true => exact publish_honest (ha sample rfl) hnext
      | false =>
          -- A sample that is not of the screen is ignored, whatever it holds.
          cases hnext
          have hnone : converted ivars.size false sample = none := by
            unfold converted
            cases sample.imageBuffer with
            | none => rfl
            | some buffer => rfl
          rw [hnone]
          exact Honest.silent rfl
  | fill dst =>
      rw [step, Option.map_eq_some_iff] at h
      rcases h with ⟨shown, hfill, heq⟩
      rw [Prod.mk.injEq] at heq
      rcases heq with ⟨rfl, rfl⟩
      rw [fill_eq_some hfill]
      exact Honest.shown rfl

/-- A plane of two rows of two bytes. -/
def tinyPlane (b : UInt8) (rows : ℕ) : PixelPlane :=
  { base := some (List.replicate (2 * rows) b)
    bytesPerRow := 2
    rows := rows
    base_length := by
      intro bytes h
      cases h
      exact List.length_replicate }

/-- A sample of one grey. -/
def tinySample (b : UInt8) : SampleBuffer :=
  { imageBuffer := some
      { format := VIDEO_RANGE_420, lockStatus := 0, y := tinyPlane b 2, uv := tinyPlane b 1 } }

/-- A sample whose luma plane has no address. -/
def headlessSample : SampleBuffer :=
  { imageBuffer := some
      { format := VIDEO_RANGE_420
        lockStatus := 0
        y := { base := none, bytesPerRow := 2, rows := 2, base_length := fun _ h => nomatch h }
        uv := tinyPlane 0 1 } }

/-- After two samples one without a luma address is delivered: the first of the two
    comes back, and a fill copies it. -/
theorem stale_frame_shown :
    (∃ ivars, Machine.exec step (OutputIvars.new (2, 2))
        [.deliver true (tinySample 1), .deliver true (tinySample 2),
          .deliver true headlessSample, .fill (I420Buffer.zeroed 2 2)] =
            some (ivars, [.wrote [1, 1, 1, 1, 1, 1], .wrote [2, 2, 2, 2, 2, 2],
              .shown (some [1, 1, 1, 1, 1, 1])])) ∧
      ¬ Fresh [.wrote ([1, 1, 1, 1, 1, 1] : List UInt8), .wrote [2, 2, 2, 2, 2, 2],
        .shown (some [1, 1, 1, 1, 1, 1])] := by
  refine ⟨⟨_, rfl⟩, fun hfresh => ?_⟩
  have hlast := hfresh [.wrote [1, 1, 1, 1, 1, 1], .wrote [2, 2, 2, 2, 2, 2]]
    [1, 1, 1, 1, 1, 1] [] rfl
  exact absurd hlast (by decide)

end Sck

namespace Stream

/-- The pixels a buffer converts to, if the guard lets it through. -/
def converted (overflowChecks : Bool) (buffer : Option (List BufferData)) (s : StreamData) :
    Option (List UInt8) :=
  match buffer with
  | none => none
  | some [] => none
  | some (data :: _) =>
      match data.data with
      | none => none
      | some bytes =>
          if guard? overflowChecks (asUsize data.stride) data.offset.toNat bytes.length =
              some true then do
            let fmt ← s.fmt
            let src ← Checked.tail? bytes data.offset.toNat
            pixels s.expected (Convert.toI420 src (asUsize data.stride) fmt)
          else none

/-- What happens to the slot: a format is negotiated, a buffer is delivered, or a
    frame is copied out. -/
inductive Action where
  | format (param : Param)
  | process (buffer : Option (List BufferData))
  | fill (dst : I420Buffer)

/-- One action, with what it writes or shows. A format that is refused ends the
    capture loop and leaves the slot. -/
def step (overflowChecks : Bool) (s : StreamData) :
    Action → Option (StreamData × List (Event (List UInt8)))
  | .format param =>
      match onFormat s param with
      | .ok s' => some (s', [])
      | .error _ => some (s, [])
  | .process buffer =>
      (onProcess overflowChecks buffer s).map fun s' =>
        (s', ((converted overflowChecks buffer s).map Event.wrote).toList)
  | .fill dst =>
      (Capture.fill s.slot dst).map fun shown =>
        (s, [.shown (if shown.1 then some shown.2.data else none)])

section Honest

variable {overflowChecks : Bool} {s s' : StreamData}

/-- A format does not touch the slot. -/
theorem onFormat_view {param : Param} (h : onFormat s param = .ok s') :
    view s'.slot = view s.slot := by
  cases param with
  | unparsed => cases h
  | otherMedia => cases h; rfl
  | badVideo e => cases h
  | video format size =>
      unfold onFormat at h
      cases hlayout : layout format with
      | error e =>
          simp only [hlayout] at h
          cases h
      | ok fmt =>
          simp only [hlayout] at h
          -- A format of another size is an error, and one that fits changes no frame.
          by_cases hsize : size ≠ s.expected
          · rw [if_pos hsize] at h
            cases h
          · rw [if_neg hsize] at h
            cases h
            rfl

/-- A buffer that is published is converted. -/
theorem publish_honest {bytes : List UInt8} {offset stride : ℕ} {fmt : Convert.PixelFormat}
    (h : publish bytes offset stride fmt s = some s') :
    ∃ src v, Checked.tail? bytes offset = some src ∧
      pixels s.expected (Convert.toI420 src stride fmt) = some v ∧ view s'.slot = some v := by
  rcases Option.bind_eq_some_iff.mp h with ⟨frame, _, hrest⟩
  rcases Option.bind_eq_some_iff.mp hrest with ⟨src, hsrc, hrest'⟩
  rcases Option.bind_eq_some_iff.mp hrest' with ⟨frame', hwrite, hs'⟩
  cases hs'
  exact ⟨src, frame'.1.data, hsrc,
    pixels_of_write (fun f f' g hdim hf => Convert.toI420_congr hdim hf) hwrite, rfl⟩

/-- What a buffer does to the slot. -/
theorem process_honest {buffer : Option (List BufferData)}
    (h : onProcess overflowChecks buffer s = some s') :
    Honest (fun s : StreamData => view s.slot) s s'
      ((converted overflowChecks buffer s).map Event.wrote).toList := by
  unfold onProcess at h
  unfold converted
  cases buffer with
  | none =>
      cases h
      exact Honest.silent rfl
  | some datas =>
      cases datas with
      | nil =>
          cases h
          exact Honest.silent rfl
      | cons data rest =>
          cases hdata : data.data with
          | none =>
              simp only [hdata, Option.some.injEq] at h ⊢
              cases h
              exact Honest.silent rfl
          | some bytes =>
              simp only [hdata] at h ⊢
              rcases Option.bind_eq_some_iff.mp h with ⟨through, hthrough, hrest⟩
              cases through with
              | false =>
                  -- The guard has returned.
                  simp only [Bool.not_false, if_true] at hrest
                  cases hrest
                  rw [hthrough, if_neg (by decide)]
                  exact Honest.silent rfl
              | true =>
                  simp only [Bool.not_true, Bool.false_eq_true, if_false] at hrest
                  rw [if_pos hthrough]
                  cases hfmt : s.fmt with
                  | none =>
                      -- No layout has been locked in yet.
                      simp only [hfmt] at hrest
                      cases hrest
                      exact Honest.silent rfl
                  | some fmt =>
                      simp only [hfmt] at hrest
                      rcases publish_honest hrest with ⟨src, v, hsrc, hpixels, hview⟩
                      simp only [hsrc, Option.bind_eq_bind, Option.bind_some, hpixels,
                        Option.map_some, Option.toList_some]
                      exact Honest.wrote v hview

/-- Every action is written as it should be. -/
theorem step_honest {a : Action} {events : List (Event (List UInt8))}
    (h : step overflowChecks s a = some (s', events)) :
    Honest (fun s : StreamData => view s.slot) s s' events := by
  cases a with
  | format param =>
      rw [step] at h
      -- A format writes nothing into the slot, whether it is taken or refused.
      cases hformat : onFormat s param with
      | ok next =>
          rw [hformat] at h
          cases h
          exact Honest.silent (onFormat_view hformat)
      | error e =>
          rw [hformat] at h
          cases h
          exact Honest.silent rfl
  | process buffer =>
      rw [step, Option.map_eq_some_iff] at h
      rcases h with ⟨next, hnext, heq⟩
      rw [Prod.mk.injEq] at heq
      rcases heq with ⟨rfl, rfl⟩
      -- Only a buffer puts a picture into the slot.
      exact process_honest hnext
  | fill dst =>
      rw [step, Option.map_eq_some_iff] at h
      rcases h with ⟨shown, hfill, heq⟩
      rw [Prod.mk.injEq] at heq
      rcases heq with ⟨rfl, rfl⟩
      -- What is shown is what the slot holds.
      rw [fill_eq_some hfill]
      exact Honest.shown rfl

end Honest

section Panics

/-- The frame size in pixels, both dimensions rounded down to even. -/
def StreamData.frameW (s : StreamData) : ℕ := (even s.expected.1).toNat
def StreamData.frameH (s : StreamData) : ℕ := (even s.expected.2).toNat

/-- There is a buffer to convert into, or one can be allocated. -/
def StreamData.Buffered (s : StreamData) : Prop :=
  s.spare.isSome ∨ frameBytes s.frameW s.frameH ≤ ISIZE_MAX

/-- The chunks and buffers `onProcess` can take. The guard must not overflow where
    that is checked; and if it lets the call through in a negotiated format, every
    row of the frame must be in the bytes from the offset on. -/
def Safe (overflowChecks : Bool) (s : StreamData) (stride offset len : ℕ) : Prop :=
  stride = 0 ∨
    (overflowChecks = true → offset + stride < 18446744073709551616) ∧
      (len < (offset + stride) % 18446744073709551616 ∨ s.fmt = none ∨
        s.Buffered ∧ offset ≤ len ∧
          Checked.RowsFit (len - offset) stride (4 * s.frameW) s.frameH)

variable {overflowChecks : Bool} {s : StreamData}

theorem takeOrNew_isSome : (SizedFrame.takeOrNew s.spare).isSome ↔ s.Buffered := by
  unfold SizedFrame.takeOrNew StreamData.Buffered
  cases s.spare with
  | some frame => exact ⟨fun _ => Or.inl rfl, fun _ => rfl⟩
  | none =>
      -- Without a spare a frame is made, which fails if its bytes are too many.
      have hnew : (SizedFrame.new s.expected).isSome ↔
          frameBytes s.frameW s.frameH ≤ ISIZE_MAX := by
        unfold StreamData.frameW StreamData.frameH
        rw [← I420Buffer.new_isSome_iff]
        unfold SizedFrame.new
        split
        · next f hf => exact ⟨fun _ => Option.isSome_iff_exists.mpr ⟨f, hf⟩, fun _ => rfl⟩
        · next hf => rw [hf, Option.isSome_none, Option.isSome_none]
      rw [hnew]
      refine ⟨Or.inr, fun h => ?_⟩
      rcases h with h | h
      · cases h
      · exact h

/-- The sum of the guard, where it does not panic. -/
theorem usizeAdd_eq {a b : ℕ} (h : overflowChecks = true → a + b < 18446744073709551616) :
    usizeAdd overflowChecks a b = some ((a + b) % 18446744073709551616) := by
  unfold usizeAdd
  by_cases hlt : a + b < 18446744073709551616
  · rw [if_pos hlt, Nat.mod_eq_of_lt hlt]
  · rw [if_neg hlt, if_neg fun hchecks => hlt (h hchecks)]

theorem usizeAdd_eq_none {a b : ℕ}
    (h : ¬ (overflowChecks = true → a + b < 18446744073709551616)) :
    usizeAdd overflowChecks a b = none := by
  rw [Classical.not_imp] at h
  rw [usizeAdd, if_neg h.2, if_pos h.1]

/-- When a buffer that came through the guard is published. -/
theorem publish_isSome_iff {bytes : List UInt8} {offset stride : ℕ} {fmt : Convert.PixelFormat} :
    (publish bytes offset stride fmt s).isSome ↔ s.Buffered ∧ offset ≤ bytes.length ∧
      Checked.RowsFit (bytes.length - offset) stride (4 * s.frameW) s.frameH := by
  rw [← takeOrNew_isSome]
  -- Every frame of the capture's size fits or none does.
  have hfits : ∀ frame : SizedFrame s.expected,
      (Convert.toI420 (bytes.drop offset) stride fmt frame.1).isSome ↔
        Checked.RowsFit (bytes.length - offset) stride (4 * s.frameW) s.frameH := by
    intro frame
    have hw : frame.1.w = s.frameW := congrArg UInt32.toNat (congrArg Prod.fst frame.2)
    have hh : frame.1.h = s.frameH := congrArg UInt32.toNat (congrArg Prod.snd frame.2)
    rw [Convert.toI420_isSome_iff, Convert.Fits, hw, hh, List.length_drop]
  rw [Option.isSome_iff_exists]
  refine ⟨?_, ?_⟩
  · rintro ⟨s', hs'⟩
    rcases Option.bind_eq_some_iff.mp hs' with ⟨frame, hframe, hrest⟩
    rcases Option.bind_eq_some_iff.mp hrest with ⟨src, hsrc, hrest'⟩
    rcases Option.bind_eq_some_iff.mp hrest' with ⟨frame', hwrite, _⟩
    rcases Checked.le_of_tail? hsrc with ⟨hle, rfl⟩
    refine ⟨by rw [hframe]; rfl, hle, (hfits frame).mp ?_⟩
    rw [SizedFrame.write_eq_some.mp hwrite]
    rfl
  · rintro ⟨hframe, hle, hrows⟩
    rcases Option.isSome_iff_exists.mp hframe with ⟨frame, hframe'⟩
    rcases Option.isSome_iff_exists.mp ((hfits frame).mpr hrows) with ⟨g, hg⟩
    have hwrite : frame.write (Convert.toI420 (bytes.drop offset) stride fmt)
        (fun _ _ h => Convert.toI420_dimensions _ _ _ h) =
          some ⟨g, (Convert.toI420_dimensions _ _ _ hg).trans frame.2⟩ :=
      SizedFrame.write_eq_some.mpr hg
    refine ⟨{ s with
      slot := some ⟨g, (Convert.toI420_dimensions _ _ _ hg).trans frame.2⟩, spare := s.slot }, ?_⟩
    rw [publish, hframe', Checked.tail?_eq_some _ _ hle]
    simp only [Option.bind_eq_bind, Option.bind_some, hwrite]

/-- The rest of the callback, for a buffer with data. -/
theorem through_isSome_iff {bytes : List UInt8} {offset stride : ℕ} :
    (do
      let through ← guard? overflowChecks stride offset bytes.length
      if !through then some s
      else
        match s.fmt with
        | none => some s
        | some fmt => publish bytes offset stride fmt s : Option StreamData).isSome ↔
      Safe overflowChecks s stride offset bytes.length := by
  unfold Safe guard?
  by_cases hzero : stride = 0
  · -- The sum is not taken.
    rw [if_pos hzero]
    exact ⟨fun _ => Or.inl hzero, fun _ => rfl⟩
  · rw [if_neg hzero]
    by_cases hsum : overflowChecks = true → offset + stride < 18446744073709551616
    · rw [usizeAdd_eq hsum, Option.map_some, Option.bind_eq_bind, Option.bind_some]
      by_cases hlong : bytes.length < (offset + stride) % 18446744073709551616
      · rw [decide_eq_false (Nat.not_le.mpr hlong)]
        exact ⟨fun _ => Or.inr ⟨hsum, Or.inl hlong⟩, fun _ => rfl⟩
      · -- What the guard lets through is converted, if there is a layout.
        rw [decide_eq_true (Nat.not_lt.mp hlong)]
        cases hfmt : s.fmt with
        | none => exact ⟨fun _ => Or.inr ⟨hsum, Or.inr (Or.inl rfl)⟩, fun _ => rfl⟩
        | some fmt =>
            simp only [Bool.not_true, Bool.false_eq_true, if_false]
            rw [publish_isSome_iff]
            refine ⟨fun h => Or.inr ⟨hsum, Or.inr (Or.inr h)⟩, fun h => ?_⟩
            rcases h with h | ⟨_, h | h | h⟩
            · exact absurd h hzero
            · exact absurd h hlong
            · cases h
            · exact h
    · -- The guard itself panics.
      rw [usizeAdd_eq_none hsum]
      constructor
      · intro h
        cases h
      · rintro (h | ⟨h, _⟩)
        · exact absurd h hzero
        · exact absurd h hsum

/-- When the PipeWire callback does not panic. -/
theorem onProcess_isSome_iff (overflowChecks : Bool) (buffer : Option (List BufferData))
    (s : StreamData) :
    (onProcess overflowChecks buffer s).isSome ↔
      ∀ data rest bytes, buffer = some (data :: rest) → data.data = some bytes →
        Safe overflowChecks s (asUsize data.stride) data.offset.toNat bytes.length := by
  cases buffer with
  | none =>
      refine ⟨fun _ data rest bytes hbuffer => ?_, fun _ => rfl⟩
      cases hbuffer
  | some datas =>
      cases datas with
      | nil =>
          refine ⟨fun _ data rest bytes hbuffer => ?_, fun _ => rfl⟩
          cases hbuffer
      | cons data rest =>
          cases hdata : data.data with
          | none =>
              rw [onProcess, hdata]
              refine ⟨fun _ data' rest' bytes hbuffer hbytes => ?_, fun _ => rfl⟩
              cases hbuffer
              rw [hdata] at hbytes
              cases hbytes
          | some bytes =>
              -- The first block is the only one that is looked at.
              have hone : (∀ data' rest' bytes', some (data :: rest) = some (data' :: rest') →
                  data'.data = some bytes' → Safe overflowChecks s (asUsize data'.stride)
                    data'.offset.toNat bytes'.length) ↔
                  Safe overflowChecks s (asUsize data.stride) data.offset.toNat bytes.length := by
                refine ⟨fun h => h data rest bytes rfl hdata,
                  fun h data' rest' bytes' hbuffer hb => ?_⟩
                cases hbuffer
                rw [hdata] at hb
                cases hb
                exact h
              rw [hone, onProcess, hdata]
              exact through_isSome_iff

end Panics

/-- A 2×2 frame in rows of eight bytes, of which the buffer has one: the guard lets it
    through, and the conversion reads past the end. -/
theorem one_row_guard :
    guard? true 8 0 8 = some true ∧
      onProcess true (some [{ stride := 8, offset := 0, data := some [0, 0, 0, 0, 0, 0, 0, 0] }])
        { expected := (2, 2), fmt := some .BGRX, slot := none, spare := none } = none :=
  ⟨rfl, rfl⟩

end Stream

/-- What is shown was converted last: in every run of ScreenCaptureKit without a
    locked sample that lacks a plane address, and in every run of PipeWire. -/
theorem capture_fresh (size : UInt32 × UInt32) :
    (∀ actions ivars history,
      (∀ sample, Sck.Action.deliver true sample ∈ actions → ¬ Sck.Headless sample) →
      Machine.exec Sck.step (Sck.OutputIvars.new size) actions = some (ivars, history) →
      Fresh history) ∧
    (∀ overflowChecks actions ud history,
      Machine.exec (Stream.step overflowChecks) (Stream.StreamData.new size) actions =
        some (ud, history) →
      Fresh history) := by
  -- Either way it is enough that every step is honest about what it puts in the slot.
  refine ⟨?_, ?_⟩
  · intro actions ivars history hplanes h
    refine exec_fresh (fun s : Sck.OutputIvars => view s.slot) rfl ?_ h
    intro a hmem s s' events ha
    refine Sck.step_honest (fun sample hdeliver => ?_) ha
    rw [hdeliver] at hmem
    exact hplanes sample hmem
  · intro overflowChecks actions ud history h
    refine exec_fresh (fun s : Stream.StreamData => view s.slot) rfl ?_ h
    intro a _ s s' events ha
    exact Stream.step_honest ha

/-- Two samples, and a fill after each. -/
theorem capture_fresh_two :
    Fresh [.wrote ([1, 1, 1, 1, 1, 1] : List UInt8), .shown (some [1, 1, 1, 1, 1, 1]),
      .wrote [2, 2, 2, 2, 2, 2], .shown (some [2, 2, 2, 2, 2, 2])] := by
  have hrun : ∃ ivars, Machine.exec Sck.step (Sck.OutputIvars.new (2, 2))
      [.deliver true (Sck.tinySample 1), .fill (I420Buffer.zeroed 2 2),
        .deliver true (Sck.tinySample 2), .fill (I420Buffer.zeroed 2 2)] =
      some (ivars, [.wrote [1, 1, 1, 1, 1, 1], .shown (some [1, 1, 1, 1, 1, 1]),
        .wrote [2, 2, 2, 2, 2, 2], .shown (some [2, 2, 2, 2, 2, 2])]) := ⟨_, rfl⟩
  rcases hrun with ⟨ivars, hrun⟩
  refine (capture_fresh (2, 2)).1 _ _ _ ?_ hrun
  intro sample hmem
  have hcases : sample = Sck.tinySample 1 ∨ sample = Sck.tinySample 2 := by
    simpa only [List.mem_cons, Sck.Action.deliver.injEq, true_and, reduceCtorEq, List.not_mem_nil,
      or_self, or_false, false_or] using hmem
  rcases hcases with rfl | rfl
  · rintro ⟨buffer, hbuffer, _, hbase⟩
    cases hbuffer
    rcases hbase with hbase | hbase <;> cases hbase
  · rintro ⟨buffer, hbuffer, _, hbase⟩
    cases hbuffer
    rcases hbase with hbase | hbase <;> cases hbase

end Capture

end LoomHost
