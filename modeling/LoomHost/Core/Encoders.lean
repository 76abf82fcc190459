import LoomHost.Core.AnnexB
import LoomHost.Core.Media

/-!
# The Encoder Wrappers

The three encoders of `loom-encode`: `HevcEncoder` over libx265 in `lib.rs`,
`NvencEncoder` over libavcodec in `nvenc.rs`, and `VideoToolboxEncoder` in
`videotoolbox.rs`. Each is a wrapper of a library the repository does not contain:
the library is a structure of its calls, with a state of its own, and the wrapper is
what the source writes around them.

A picture stands for the planes and their strides. What the libraries are given
through pointers is given here as it is. Handles that are freed and memory that is
not there are left out, and so are the values of the properties of a VideoToolbox
session, some of which are floating-point numbers.

VideoToolbox calls back on a thread of its own, but the wrapper flushes the session
within the call, and takes the sink's lock only then: the callbacks of a call come
before the wrapper looks into the sink, in the order they are given.

## Main definitions

* `X265`, `HevcEncoder`: The software encoder.
* `AvCodec`, `NvencEncoder`: The hardware encoder on Linux.
* `VideoToolbox`, `VideoToolboxEncoder`: The hardware encoder on macOS, with its
  `Sink`, `outputCallback` and `convert`.
* `hevcBackend`, `nvencBackend`, `videotoolboxBackend`: The encoders, as the media
  loop uses them.
* `dumpHevc`: The test pattern, encoded to a file.
-/

namespace LoomHost

namespace Encoders

open Media

section X265

/-- The parameters of an encoder that are set. -/
structure X265Param where
  sourceWidth : Int32
  sourceHeight : Int32
  fpsNum : UInt32
  fpsDenom : UInt32
  bframes : Int32
  maxNumReferences : Int32
  keyframeMax : Int32
  keyframeMin : Int32
  bOpenGOP : Int32
  scenecutThreshold : Int32
  bRepeatHeaders : Int32
  bAnnexB : Int32
  bitrate : Int32
  vbvMaxBitrate : Int32
  vbvBufferSize : Int32
  deriving Repr, DecidableEq

/-- The two slice types that are asked for. -/
inductive SliceType where
  | IDR
  | P
  deriving Repr, DecidableEq

structure X265Picture (P : Type*) where
  planes : P
  pts : Int64
  sliceType : SliceType
  deriving DecidableEq

structure X265Nal where
  type_ : UInt32
  payload : List UInt8
  deriving Repr, DecidableEq

/-- libx265 NAL types for IDR access units. -/
def NAL_IDR_W_RADL : UInt32 := 19
def NAL_IDR_N_LP : UInt32 := 20

/-- The calls of libx265, over encoders `X`. -/
structure X265 (X P : Type*) where
  /-- `x265_param_alloc` gives a record. -/
  paramAlloc : Bool
  /-- `x265_param_default_preset`, for a preset and a tuning. -/
  paramDefaultPreset : String → String → Int32
  encoderOpen : X265Param → Option X
  /-- `x265_encoder_encode`: its status and the NAL units. -/
  encoderEncode : X → X265Picture P → Int32 × List X265Nal × X

/-- The variants of `EncodeError` of the software encoder. -/
inductive HevcError where
  | Param
  | Preset (preset : String)
  | Open
  | Encode (status : Int32)
  deriving Repr, DecidableEq

structure HevcEncoder (X : Type*) where
  enc : X
  started : Bool

/-- The parameters for a configuration. -/
def x265Param (cfg : EncoderConfig) : X265Param :=
  let perFrameKbit := cfg.bitrateKbps.toInt32 * (max cfg.fpsDen 1).toInt32 /
    (max cfg.fpsNum 1).toInt32
  { sourceWidth := cfg.width.toInt32, sourceHeight := cfg.height.toInt32,
    fpsNum := cfg.fpsNum, fpsDenom := cfg.fpsDen, bframes := cfg.bframes.toInt32,
    maxNumReferences := cfg.maxRef.toInt32, keyframeMax := cfg.keyintMax,
    keyframeMin := cfg.keyintMax, bOpenGOP := 0,
    scenecutThreshold := if cfg.scenecut then 40 else 0,
    bRepeatHeaders := if cfg.repeatHeaders then 1 else 0, bAnnexB := 1,
    bitrate := cfg.bitrateKbps.toInt32, vbvMaxBitrate := cfg.bitrateKbps.toInt32,
    vbvBufferSize := max perFrameKbit 1 }

variable {X P : Type*} (lib : X265 X P)

/-- Open an encoder. -/
def HevcEncoder.new (cfg : EncoderConfig) : Except HevcError (HevcEncoder X) :=
  if !lib.paramAlloc then .error .Param
  else if lib.paramDefaultPreset "ultrafast" "zerolatency" ≠ 0 then
    .error (.Preset "ultrafast/zerolatency")
  else
    match lib.encoderOpen (x265Param cfg) with
    | none => .error .Open
    | some enc => .ok { enc, started := false }

/-- Encode one picture. The first one and those forced are coded as IDRs. -/
def HevcEncoder.encodeI420 (e : HevcEncoder X) (planes : P) (pts : Int64) (forceIdr : Bool) :
    Except HevcError (Option AccessUnit) × HevcEncoder X :=
  let sliceType := if forceIdr || !e.started then SliceType.IDR else SliceType.P
  let (ret, nals, enc) := lib.encoderEncode e.enc { planes, pts, sliceType }
  let e := { enc, started := true }
  if ret < 0 then (.error (.Encode ret), e)
  else if ret = 0 ∨ nals.length = 0 then (.ok none, e)
  else
    let keyframe := nals.any fun n => n.type_ == NAL_IDR_W_RADL || n.type_ == NAL_IDR_N_LP
    (.ok (some { keyframe, data := nals.flatMap X265Nal.payload }), e)

end X265

section AvCodec

/-- The fields of an `AVCodecContext` that are set. -/
structure AVCodecContext where
  width : Int32
  height : Int32
  /-- The time base and the frame rate, as numerator and denominator. -/
  timeBase : Int32 × Int32
  framerate : Int32 × Int32
  gopSize : Int32
  maxBFrames : Int32
  refs : Int32
  bitRate : Int64
  rcMaxRate : Int64
  rcMinRate : Int64
  rcBufferSize : Int32
  deriving Repr, DecidableEq

/-- The value of a private option. -/
inductive OptValue where
  | str (value : String)
  | int (value : Int64)
  deriving Repr, DecidableEq

inductive PictType where
  | I
  | NONE
  deriving Repr, DecidableEq

structure AVFrame (P : Type*) where
  planes : P
  pts : Int64
  pictType : PictType
  deriving DecidableEq

structure AVPacket where
  data : List UInt8
  flags : Int32
  deriving Repr, DecidableEq

/-- `AVERROR(EAGAIN)`. -/
def AVERROR_EAGAIN : Int32 := -11

def AV_PKT_FLAG_KEY : Int32 := 1

/-- The calls of libavcodec, over contexts `A`. -/
structure AvCodec (A P : Type*) where
  findEncoderByName : String → Bool
  allocContext3 : Bool
  /-- `av_opt_set` and `av_opt_set_int`. -/
  optSet : String → OptValue → Int32
  /-- `avcodec_open2`, for the fields and the options: its status and the context. -/
  open2 : AVCodecContext → List (String × OptValue) → Int32 × A
  /-- `av_frame_alloc` and `av_packet_alloc`. -/
  allocFrame : Bool
  allocPacket : Bool
  sendFrame : A → AVFrame P → Int32 × A
  receivePacket : A → Int32 × AVPacket × A

/-- The variants of `EncodeError` of the encoder on Linux. -/
inductive NvencError where
  | EncoderUnavailable
  | Open
  | Av (status : Int32)
  deriving Repr, DecidableEq

/-- The context for a configuration. -/
def avContext (cfg : EncoderConfig) : AVCodecContext :=
  let bitrate := cfg.bitrateKbps.toUInt64.toInt64 * 1000
  let perFrame := bitrate * (max cfg.fpsDen 1).toUInt64.toInt64 /
    (max cfg.fpsNum 1).toUInt64.toInt64
  { width := cfg.width.toInt32, height := cfg.height.toInt32,
    timeBase := (cfg.fpsDen.toInt32, cfg.fpsNum.toInt32),
    framerate := (cfg.fpsNum.toInt32, cfg.fpsDen.toInt32), gopSize := cfg.keyintMax,
    maxBFrames := cfg.bframes.toInt32, refs := cfg.maxRef.toInt32, bitRate := bitrate,
    rcMaxRate := bitrate, rcMinRate := bitrate, rcBufferSize := perFrame.toInt32 }

/-- The private options, in the order they are set. -/
def nvencOptions : List (String × OptValue) :=
  [("preset", .str "p4"), ("tune", .str "ull"), ("rc", .str "cbr"), ("profile", .str "main"),
    ("forced-idr", .int 1), ("delay", .int 0)]

variable {A P : Type*} (lib : AvCodec A P)

/-- `set_opt` and `set_opt_int`, one after the other. -/
def setOpts : List (String × OptValue) → Except NvencError Unit
  | [] => .ok ()
  | (key, value) :: opts =>
    let ret := lib.optSet key value
    if ret < 0 then .error (.Av ret) else setOpts opts

structure NvencEncoder (A : Type*) where
  ctx : A

/-- Open `hevc_nvenc`. -/
def NvencEncoder.new (cfg : EncoderConfig) : Except NvencError (NvencEncoder A) :=
  if !lib.findEncoderByName "hevc_nvenc" then .error .EncoderUnavailable
  else if !lib.allocContext3 then .error .Open
  else
    match setOpts lib nvencOptions with
    | .error e => .error e
    | .ok () =>
      let (ret, ctx) := lib.open2 (avContext cfg) nvencOptions
      if ret < 0 then .error (.Av ret)
      else if !lib.allocFrame || !lib.allocPacket then .error .Open
      else .ok { ctx }

/-- Encode one picture: it is sent, and one packet is asked for. -/
def NvencEncoder.encodeI420 (e : NvencEncoder A) (planes : P) (pts : Int64) (forceIdr : Bool) :
    Except NvencError (Option AccessUnit) × NvencEncoder A :=
  let pictType := if forceIdr then PictType.I else PictType.NONE
  let (ret, ctx) := lib.sendFrame e.ctx { planes, pts, pictType }
  if ret < 0 then (.error (.Av ret), { ctx })
  else
    let (ret, pkt, ctx) := lib.receivePacket ctx
    if ret = AVERROR_EAGAIN then (.ok none, { ctx })
    else if ret < 0 then (.error (.Av ret), { ctx })
    else (.ok (some { keyframe := pkt.flags &&& AV_PKT_FLAG_KEY != 0, data := pkt.data }), { ctx })

end AvCodec

section VideoToolbox

/-- The parameter sets of a format description, as
    `CMVideoFormatDescriptionGetHEVCParameterSetAtIndex` gives them: for index 0 the
    status of asking for their number and the length size, and for each index the
    status and the set, unless its pointer is null. -/
structure FormatDescription where
  status : Int32
  count : ℕ
  nalLengthSize : Int32
  parameterSet : ℕ → Int32 × Option (List UInt8)

/-- A block buffer: what `data_pointer` returns. -/
structure BlockBuffer where
  status : Int32
  bytes : Option (List UInt8)

/-- An encoded sample buffer. -/
structure CMSampleBuffer where
  formatDescription : Option FormatDescription
  dataBuffer : Option BlockBuffer

/-- Where the output callback leaves the encoded frame. -/
structure Sink where
  au : Option AccessUnit
  /-- The first failing status seen. -/
  error : Option Int32
  repeatHeaders : Bool
  deriving Repr, DecidableEq

/-- The parameter sets from `index` on, each behind a start code. -/
def parameterSets (format : FormatDescription) (index : ℕ) :
    ℕ → List UInt8 → Except EncodeError (List UInt8)
  | 0, data => .ok data
  | left + 1, data =>
    let (status, set) := format.parameterSet index
    match set with
    | none => .error (.VideoToolbox status)
    | some set =>
      if status ≠ 0 then .error (.VideoToolbox status)
      else parameterSets format (index + 1) left (data ++ AnnexB.START_CODE ++ set)

/-- Turn one encoded sample buffer into an access unit. -/
def convert (sampleBuffer : CMSampleBuffer) (repeatHeaders : Bool) :
    Except EncodeError AccessUnit :=
  match sampleBuffer.formatDescription with
  | none => .error (.Bitstream "sample buffer has no format description")
  | some format =>
    match sampleBuffer.dataBuffer with
    | none => .error (.Bitstream "sample buffer has no data buffer")
    | some block =>
      match block.bytes with
      | none => .error (.VideoToolbox block.status)
      | some src =>
        if block.status ≠ 0 then .error (.VideoToolbox block.status)
        else if format.status ≠ 0 then .error (.VideoToolbox format.status)
        else
          -- The length size is cast to `usize`: a negative one is longer than any slice.
          let nalLengthSize := format.nalLengthSize.toInt64.toUInt64.toNat
          match AnnexB.append src nalLengthSize [] with
          | (.error e, _) => .error e
          | (.ok keyframe, body) =>
            if !(keyframe && repeatHeaders) then .ok { keyframe, data := body }
            else
              match parameterSets format 0 format.count [] with
              | .error e => .error e
              | .ok data => .ok { keyframe, data := data ++ body }

/-- A call of the output callback: its status and the sample buffer, if there is
    one. -/
structure Callback where
  status : Int32
  sampleBuffer : Option CMSampleBuffer

/-- `error.get_or_insert(status)`. -/
def Sink.fail (sink : Sink) (status : Int32) : Sink :=
  { sink with error := some (sink.error.getD status) }

/-- The output callback. -/
def outputCallback (sink : Sink) (c : Callback) : Sink :=
  if c.status ≠ 0 then sink.fail c.status
  else
    match c.sampleBuffer with
    | none => sink  -- a dropped frame
    | some sampleBuffer =>
      match convert sampleBuffer sink.repeatHeaders with
      | .ok au => { sink with au := some au }
      | .error (.VideoToolbox status) => sink.fail status
      | .error _ => sink.fail (-1)

/-- `kVTPropertyNotSupportedErr`: the encoder does not implement the key at all. -/
def K_VT_PROPERTY_NOT_SUPPORTED : Int32 := -12900

/-- The variants of `EncodeError` of opening a session. -/
inductive OpenError where
  | VideoToolbox (status : Int32)
  | VideoToolboxProperty (key : String) (status : Int32)
  deriving Repr, DecidableEq

/-- The calls of a compression session, over sessions `V`. -/
structure VideoToolbox (V P : Type*) where
  /-- `VTCompressionSession::create`: its status and the session, if there is one. -/
  create : EncoderConfig → Int32 × Option V
  /-- `VTSessionSetProperty`, for the key, with the value the configuration gives. -/
  setProperty : V → EncoderConfig → String → Int32
  /-- The source pixel buffer for a picture, `fillPixelBuffer`. -/
  fillPixelBuffer : V → P → Except EncodeError Unit
  /-- `encodeFrame`, for a picture, its time stamp and whether to force a keyframe:
      its status and the callbacks it makes. -/
  encodeFrame : V → P → Int64 → Bool → Int32 × List Callback × V
  /-- `completeFrames`: its status and the callbacks it makes. -/
  completeFrames : V → Int32 × List Callback × V

/-- The properties of a session in the order they are set, and which are hints. -/
def sessionProperties : List (String × Bool) :=
  [("RealTime", true), ("PrioritizeEncodingSpeedOverQuality", true), ("ExpectedFrameRate", true),
    ("ProfileLevel", false), ("AllowFrameReordering", false), ("ReferenceBufferCount", false),
    ("AllowTemporalCompression", false), ("MaxKeyFrameInterval", false),
    ("MaxKeyFrameIntervalDuration", false), ("AverageBitRate", false)]

structure VideoToolboxEncoder (V : Type*) where
  session : V
  sink : Sink

variable {V P : Type*} (lib : VideoToolbox V P)

/-- `set` and `set_hint`, one after the other. An encoder may lack a hint. -/
def setProperties (session : V) (cfg : EncoderConfig) : List (String × Bool) →
    Except OpenError Unit
  | [] => .ok ()
  | (name, hint) :: rest =>
    let status := lib.setProperty session cfg name
    if status = 0 || hint && status == K_VT_PROPERTY_NOT_SUPPORTED then
      setProperties session cfg rest
    else .error (.VideoToolboxProperty name status)

/-- The properties, and the data rate limit last. -/
def configure (session : V) (cfg : EncoderConfig) : Except OpenError Unit :=
  match setProperties lib session cfg sessionProperties with
  | .error e => .error e
  | .ok () =>
    let status := lib.setProperty session cfg "DataRateLimits"
    if status = 0 then .ok () else .error (.VideoToolbox status)

/-- Open a session. -/
def VideoToolboxEncoder.new (cfg : EncoderConfig) : Except OpenError (VideoToolboxEncoder V) :=
  let sink := { au := none, error := none, repeatHeaders := cfg.repeatHeaders }
  let (status, raw) := lib.create cfg
  match raw with
  | none => .error (.VideoToolbox status)
  | some session =>
    if status ≠ 0 then .error (.VideoToolbox status)
    else
      match configure lib session cfg with
      | .error e => .error e
      | .ok () => .ok { session, sink }

/-- Encode one picture. The session is flushed, so that its access unit is
    returned. -/
def VideoToolboxEncoder.encodeI420 (e : VideoToolboxEncoder V) (planes : P) (pts : Int64)
    (forceIdr : Bool) : Except EncodeError (Option AccessUnit) × VideoToolboxEncoder V :=
  match lib.fillPixelBuffer e.session planes with
  | .error err => (.error err, e)
  | .ok () =>
    let (status, called, session) := lib.encodeFrame e.session planes pts forceIdr
    let sink := called.foldl outputCallback e.sink
    if status ≠ 0 then (.error (.VideoToolbox status), { session, sink })
    else
      let (status, called, session) := lib.completeFrames session
      let sink := called.foldl outputCallback sink
      if status ≠ 0 then (.error (.VideoToolbox status), { session, sink })
      else
        match sink.error with
        | some status =>
          (.error (.VideoToolbox status), { session, sink := { sink with error := none } })
        | none => (.ok sink.au, { session, sink := { sink with au := none } })

end VideoToolbox

section Backends

variable {X P : Type*} (lib : X265 X P)

/-- The software encoder with a frame source, as the media loop uses them. -/
def hevcBackend (openSource : Session.MediaParams → Option (Source P)) :
    Backend (HevcEncoder X) P :=
  { openEncoder := fun cfg => (HevcEncoder.new lib cfg).toOption
    openSource
    encodeI420 := fun e planes ts forceIdr =>
      match e.encodeI420 lib planes ts forceIdr with
      | (.ok au, e) => some (au, e)
      | (.error _, _) => none }

/-- The encoder on Linux, likewise. -/
def nvencBackend {A : Type*} (lib : AvCodec A P)
    (openSource : Session.MediaParams → Option (Source P)) : Backend (NvencEncoder A) P :=
  { openEncoder := fun cfg => (NvencEncoder.new lib cfg).toOption
    openSource
    encodeI420 := fun e planes ts forceIdr =>
      match e.encodeI420 lib planes ts forceIdr with
      | (.ok au, e) => some (au, e)
      | (.error _, _) => none }

/-- The encoder on macOS, likewise. -/
def videotoolboxBackend {V : Type*} (lib : VideoToolbox V P)
    (openSource : Session.MediaParams → Option (Source P)) : Backend (VideoToolboxEncoder V) P :=
  { openEncoder := fun cfg => (VideoToolboxEncoder.new lib cfg).toOption
    openSource
    encodeI420 := fun e planes ts forceIdr =>
      match e.encodeI420 lib planes ts forceIdr with
      | (.ok au, e) => some (au, e)
      | (.error _, _) => none }

/-- The loop of `dumpHevc`, from `frameSeq` on, for the frames that are left. `none`
    is an error of the encoder, or a panic of the rendering. -/
def dumpFrames {E : Type*} (backend : Backend E P) (render : UInt32 → Option P)
    (frameSeq : UInt32) : ℕ → E → Option (List UInt8)
  | 0, _ => some []
  | left + 1, encoder =>
    match render frameSeq with
    | none => none
    | some planes =>
      match backend.encodeI420 encoder planes (Int64.ofNat frameSeq.toNat) (frameSeq == 0) with
      | none => none
      | some (au, encoder) =>
        match dumpFrames backend render (frameSeq + 1) left encoder with
        | none => none
        | some rest =>
          some ((match au with | some au => au.data | none => []) ++ rest)

/-- Encode `frames` of the synthetic test pattern. The file holds the access units,
    one after the other. -/
def dumpHevc {E : Type*} (backend : Backend E P) (render : UInt32 → Option P)
    (params : Session.MediaParams) (frames : UInt32) : Option (List UInt8) :=
  match backend.openEncoder (encoderConfig params.width.toUInt32 params.height.toUInt32
      params.refresh.toUInt32 params.bitrateKbps.toUInt32) with
  | none => none
  | some encoder => dumpFrames backend render 0 frames.toNat encoder

end Backends

end Encoders

end LoomHost
