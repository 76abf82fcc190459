import LoomHost.Core.Convert
import LoomHost.Core.Nv12

/-!
# The Capture Slot

How captured frames get to the media loop: `publish` of `loom-capture/src/sck.rs`
for ScreenCaptureKit, `on_format` and `on_process` of `loom-capture/src/stream.rs`
for PipeWire, and `fill`, which is the same for both.

Either backend writes into a spare buffer and exchanges it with the one in the
slot, which becomes the spare. The callbacks of a backend run on one thread, and
the slot is locked for the exchange alone, so that a run is a sequence of
callbacks and calls of `fill`. `none` is a panic, which ends it.

A buffer of a backend has the size the capture was started with: `SizedFrame`
carries that, and a conversion keeps it.

What the system hands over is given with the callback: of a pixel buffer its
format, the status of locking it and its planes, of a PipeWire buffer its chunk and
data. The lock is released and the result of the format is reported as in the
source; neither is part of the state.

## Main definitions

* `SizedFrame`: A frame of the size of the capture.
* `fill`: Copying the newest frame.
* `Sck.publish`: One sample buffer of ScreenCaptureKit.
* `Stream.onFormat`, `Stream.onProcess`: The two PipeWire callbacks.
-/

namespace LoomHost

namespace Capture

/-- A frame of the size of the capture, both dimensions rounded down to even. -/
abbrev SizedFrame (size : UInt32 × UInt32) : Type :=
  { f : I420Buffer // f.dimensions = (even size.1, even size.2) }

namespace SizedFrame

variable {size : UInt32 × UInt32}

def new (size : UInt32 × UInt32) : Option (SizedFrame size) :=
  match h : I420Buffer.new size.1 size.2 with
  | some f => some ⟨f, I420Buffer.new_dimensions h⟩
  | none => none

/-- A conversion into the frame, which keeps its dimensions. -/
def write (frame : SizedFrame size) (convert : I420Buffer → Option I420Buffer)
    (hkeep : ∀ f g, convert f = some g → g.dimensions = f.dimensions) : Option (SizedFrame size) :=
  match h : convert frame.1 with
  | some g => some ⟨g, (hkeep _ _ h).trans frame.2⟩
  | none => none

theorem write_eq_some {frame g : SizedFrame size} {convert : I420Buffer → Option I420Buffer}
    {hkeep : ∀ f g, convert f = some g → g.dimensions = f.dimensions} :
    frame.write convert hkeep = some g ↔ convert frame.1 = some g.1 := by
  unfold write
  split
  · next f hf =>
      constructor
      · intro h
        cases h
        exact hf
      · intro h
        exact congrArg some (Subtype.ext (Option.some.inj (hf.symm.trans h)))
  · next hf =>
      constructor
      · intro h
        cases h
      · intro h
        rw [hf] at h
        cases h

/-- `spare.take().unwrap_or_else(|| I420Buffer::new(w, h))`. -/
def takeOrNew (spare : Option (SizedFrame size)) : Option (SizedFrame size) :=
  match spare with
  | some frame => some frame
  | none => new size

end SizedFrame

/-- Copy the newest captured frame into `dst`, and whether there was one. -/
def fill {size : UInt32 × UInt32} (slot : Option (SizedFrame size)) (dst : I420Buffer) :
    Option (Bool × I420Buffer) :=
  match slot with
  | some frame => (frame.1.copyInto dst).map fun dst => (true, dst)
  | none => some (false, dst)

namespace Sck

/-- `kCVPixelFormatType_420YpCbCr8BiPlanarVideoRange`, which is `420v`. -/
def VIDEO_RANGE_420 : UInt32 := 0x34323076

/-- A plane of a locked pixel buffer: the memory at its base address, unless that
    is null, which is as long as its rows. -/
structure PixelPlane where
  base : Option (List UInt8)
  bytesPerRow : ℕ
  rows : ℕ
  base_length : ∀ bytes, base = some bytes → bytes.length = bytesPerRow * rows

/-- A pixel buffer: its format, what locking it returns, and its planes. -/
structure ImageBuffer where
  format : UInt32
  lockStatus : Int32
  y : PixelPlane
  uv : PixelPlane

/-- A sample buffer. An idle or blank one has no image buffer. -/
structure SampleBuffer where
  imageBuffer : Option ImageBuffer

/-- State owned by the stream-output delegate, with the slot it shares. -/
structure OutputIvars where
  size : UInt32 × UInt32
  slot : Option (SizedFrame size)
  spare : Option (SizedFrame size)

def OutputIvars.new (size : UInt32 × UInt32) : OutputIvars :=
  { size := size, slot := none, spare := none }

/-- Whether the planes of the image buffer are read: it has the expected format and
    can be locked. -/
def ImageBuffer.lockable (pixels : ImageBuffer) : Bool :=
  pixels.format == VIDEO_RANGE_420 && pixels.lockStatus == 0

/-- Both planes are split into the frame, if both are there. -/
def convert {size : UInt32 × UInt32} (pixels : ImageBuffer) (frame : SizedFrame size) :
    Option (SizedFrame size) :=
  match pixels.y.base, pixels.uv.base with
  | some y, some uv =>
      frame.write (Nv12.toI420 y pixels.y.bytesPerRow uv pixels.uv.bytesPerRow)
        fun _ _ h => Nv12.toI420_dimensions h
  -- A null address skips the split, not the publication.
  | _, _ => some frame

/-- Convert one delivered sample buffer into the shared slot. -/
def publish (sampleBuffer : SampleBuffer) (ivars : OutputIvars) : Option OutputIvars :=
  match sampleBuffer.imageBuffer with
  -- Nothing has changed, and the media loop repeats its held frame.
  | none => some ivars
  | some pixels => do
      let frame ← SizedFrame.takeOrNew ivars.spare
      -- The spare has been taken, so that an error drops it.
      if pixels.format ≠ VIDEO_RANGE_420 then
        some { ivars with spare := none }
      else if pixels.lockStatus ≠ 0 then
        some { ivars with spare := none }
      else
        let frame ← convert pixels frame
        -- The displaced frame is the next scratch.
        some { ivars with slot := some frame, spare := ivars.slot }

/-- The callback: only the samples of the screen are published. -/
def didOutputSampleBuffer (screen : Bool) (sampleBuffer : SampleBuffer)
    (ivars : OutputIvars) : Option OutputIvars :=
  if screen then publish sampleBuffer ivars else some ivars

end Sck

namespace Stream

inductive CaptureError where
  | Pipewire (what : String)
  | SizeMismatch (got want : UInt32 × UInt32)
  deriving Repr, DecidableEq

/-- The video formats that are told apart. -/
inductive VideoFormat where
  | BGRA
  | BGRx
  | RGBA
  | RGBx
  | other (name : String)
  deriving Repr, DecidableEq

/-- A format parameter, as the parsers of the library read it. -/
inductive Param where
  /-- It does not parse as a format. -/
  | unparsed
  /-- Another kind of media than raw video. -/
  | otherMedia
  /-- Raw video whose properties do not parse. -/
  | badVideo (e : String)
  /-- Raw video of a format and size. -/
  | video (format : VideoFormat) (size : UInt32 × UInt32)
  deriving Repr, DecidableEq

/-- State owned by the PipeWire thread, with the slot it shares. -/
structure StreamData where
  expected : UInt32 × UInt32
  fmt : Option Convert.PixelFormat
  slot : Option (SizedFrame expected)
  spare : Option (SizedFrame expected)

def StreamData.new (expected : UInt32 × UInt32) : StreamData :=
  { expected := expected, fmt := none, slot := none, spare := none }

/-- The pixel layout of a video format. -/
def layout (format : VideoFormat) : Except CaptureError Convert.PixelFormat :=
  match format with
  | .BGRA => .ok .BGRX
  | .BGRx => .ok .BGRX
  | .RGBA => .ok .RGBX
  | .RGBx => .ok .RGBX
  | .other name => .error (.Pipewire ("unexpected pixel format " ++ name))

/-- Validate the fixated format and lock in the pixel layout. -/
def onFormat (ud : StreamData) (param : Param) : Except CaptureError StreamData :=
  match param with
  | .unparsed => .error (.Pipewire "parse_format")
  | .otherMedia => .ok ud
  | .badVideo e => .error (.Pipewire ("parse video format: " ++ e))
  | .video format size =>
      match layout format with
      | .error e => .error e
      | .ok fmt =>
          -- A layout is only locked in for the size that was asked for.
          if size ≠ ud.expected then .error (.SizeMismatch size ud.expected)
          else .ok { ud with fmt := some fmt }

/-- One data block of a PipeWire buffer, with its chunk. -/
structure BufferData where
  stride : Int32
  offset : UInt32
  data : Option (List UInt8)
  deriving Repr, DecidableEq

/-- `a + b` in `usize`: a panic where overflow is checked, and wrapping where not. -/
def usizeAdd (overflowChecks : Bool) (a b : ℕ) : Option ℕ :=
  if a + b < 18446744073709551616 then some (a + b)
  else if overflowChecks then none
  else some ((a + b) % 18446744073709551616)

/-- Whether the guard of `onProcess` lets the call through. -/
def guard? (overflowChecks : Bool) (stride offset len : ℕ) : Option Bool :=
  if stride = 0 then some false
  -- One row is asked for, not all of them.
  else (usizeAdd overflowChecks offset stride).map fun stop => decide (stop ≤ len)

/-- Convert the bytes from `offset` on and publish the frame. -/
def publish (bytes : List UInt8) (offset stride : ℕ) (fmt : Convert.PixelFormat) (s : StreamData) :
    Option StreamData := do
  let frame ← SizedFrame.takeOrNew s.spare
  let src ← Checked.tail? bytes offset
  let frame ← frame.write (Convert.toI420 src stride fmt) fun _ _ h =>
    Convert.toI420_dimensions _ _ _ h
  some { s with slot := some frame, spare := s.slot }

/-- Per delivered frame: convert the packed buffer to I420 and publish it. The
    argument is what `dequeue_buffer` returned, as the list of its data blocks. -/
def onProcess (overflowChecks : Bool) (buffer : Option (List BufferData)) (s : StreamData) :
    Option StreamData :=
  match buffer with
  | none => some s
  | some [] => some s
  | some (data :: _) =>
      match data.data with
      | none => some s
      | some bytes => do
          let through ← guard? overflowChecks (asUsize data.stride) data.offset.toNat bytes.length
          if !through then some s
          else
            match s.fmt with
            | none => some s
            | some fmt => publish bytes data.offset.toNat (asUsize data.stride) fmt s

end Stream

end Capture

end LoomHost
