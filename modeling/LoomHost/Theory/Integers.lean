import LoomHost.Core.Conn
import LoomHost.Theory.Session.Reconfigured

/-!
# The Integers of a Message

A body carries integers of CBOR's range, and the session casts each to the width
of the field it is for, without a check. A cast keeps an integer exactly if the
field can hold it, and otherwise makes another one of it: an IDR_REQUEST for
stream 65536 asks for stream 0. So what a message becomes is what was sent
exactly if every integer that is read, in the state the message arrives in, fits
its field.

A session may refuse or pass over a message, and then reads nothing of it. The
size of a VIEWPORT is clamped on purpose; what is to be kept is the size that
goes into the clamp.

## Main definitions

* `StatsReport.Reports`: A report says what its message says.
* `Resizes`: A new size, from its CONFIG until it is applied.
* `Keeps`: A session forwards and stores what was sent.
* `InRange`: The integers that are read fit their fields.
* `ReadFrom`: Where a forwarded integer comes from.
* `Tells`: An IDR request reaches the stream it names.
* `Routes`: So does what the driver makes of it.

## Theorems

* `fromBody_reports_iff`: When a report says what was sent.
* `pending_run`: A size is kept until it is applied.
* `Reacts.reads`, `Reacts.resizes`: What is read of a message.
* `keeps_iff`: When a session keeps the integers of a message.
* `tells_tell`: Telling a stream.
* `integers_kept_iff`: The same on the wire, in every state of every run.
-/

namespace LoomHost

namespace Session

open Cbor Control WordCast

/-- A report says what the body of its message says, absent keys aside. -/
structure StatsReport.Reports (body : List (Value × Value)) (r : StatsReport) : Prop where
  framesReceived : r.framesReceived.toInt = (intKey body 0).getD 0
  framesDropped : r.framesDropped.toInt = (intKey body 1).getD 0
  datagrams : r.datagrams.toInt = (intKey body 2).getD 0
  decodeUs : r.decodeUs.toInt = (intKey body 4).getD 0
  rttUs : r.rttUs.toInt = (intKey body 5).getD 0
  e2eUs : r.e2eUs.map Int64.toInt = intKey body 6
  streamId : (r.streamId.toNat : ℤ) = (intKey body 7).getD 0

/-- The integers of a STATS body fit their fields. -/
structure StatsInRange (body : List (Value × Value)) : Prop where
  counters : ∀ key ∈ ([0, 1, 2, 4, 5] : List ℤ), Signed 64 ((intKey body key).getD 0)
  e2eUs : ∀ i, intKey body 6 = some i → Signed 64 i
  streamId : Unsigned 16 ((intKey body 7).getD 0)

/-- A new size: stored when its CONFIG is sent, and the one that is applied when
    the next reconfiguration is. -/
structure Resizes (s : HostSession) (size : UInt64 × UInt64) : Prop where
  stored : (s.params.width, s.params.height) = size
  applied : ∀ u frame p, (∀ q, .out (.Reconfigure q) ∉ log s u) →
    .Reconfigure p ∈ ((s.run u).onFrame frame).2 → (p.width, p.height) = size

/-- What a session forwards and stores of a message is what was sent. -/
structure Keeps (s : HostSession) (msgType : UInt64) (body : List (Value × Value)) : Prop where
  clockPing : ∀ t0, .ClockPong t0 ∈ (s.onFrame (.Message msgType body)).2 →
    t0.toInt = (intKey body 0).getD 0
  idrRequest : ∀ streamId, .RequestIdr streamId ∈ (s.onFrame (.Message msgType body)).2 →
    (streamId.toNat : ℤ) = (intKey body 1).getD 0
  stats : ∀ r, .Stats r ∈ (s.onFrame (.Message msgType body)).2 → r.Reports body
  /-- The maximum of an accepted HELLO is there for the rest of the session. -/
  hello : s.state = .WaitHello → (s.onFrame (.Message msgType body)).1.state = .WaitConfigAck →
    ∀ w h, pairElem body 3 0 = some w → pairElem body 3 1 = some h → ∀ frames,
      (((s.onFrame (.Message msgType body)).1.run frames).clientMaxWidth.toNat : ℤ) = w ∧
      (((s.onFrame (.Message msgType body)).1.run frames).clientMaxHeight.toNat : ℤ) = h
  /-- A CONFIG that answers a VIEWPORT announces the size that was sent, clamped,
      and that is the size applied. -/
  viewport : ∀ config, msgType = VIEWPORT →
    .Send CONFIG config ∈ (s.onFrame (.Message msgType body)).2 →
    ∃ w h : UInt64, pairElem body 0 0 = some (w.toNat : ℤ) ∧
      pairElem body 0 1 = some (h.toNat : ℤ) ∧
      Announces config (s.onFrame (.Message msgType body)).1.params ∧
      Resizes (s.onFrame (.Message msgType body)).1 (s.clampViewport w h)

/-- The integers that are read of a message, in this state, fit their fields. -/
structure InRange (s : HostSession) (msgType : UInt64) (body : List (Value × Value)) :
    Prop where
  clockPing : s.state ≠ .Closed → msgType = CLOCK_PING → Signed 64 ((intKey body 0).getD 0)
  idrRequest : s.state = .Streaming → msgType = IDR_REQUEST →
    Unsigned 16 ((intKey body 1).getD 0)
  stats : s.state = .Streaming → msgType = STATS → StatsInRange body
  hello : s.state = .WaitHello → msgType = HELLO →
    intKey body 0 = some (PROTOCOL_VERSION.toNat : ℤ) → offersCodec body CODEC_HEVC = true →
    ∀ w h, pairElem body 3 0 = some w → pairElem body 3 1 = some h →
    Unsigned 64 w ∧ Unsigned 64 h
  /-- A VIEWPORT is read if none is pending, and matters if it changes the size. -/
  viewport : s.state = .Streaming → msgType = VIEWPORT → s.pendingGeneration = none →
    ∀ w h, pairElem body 0 0 = some w → pairElem body 0 1 = some h →
    s.clampViewport (UInt64.ofInt w) (UInt64.ofInt h) ≠ (s.params.width, s.params.height) →
    Unsigned 64 w ∧ Unsigned 64 h

/-- Where an output that carries an integer of a message comes from. -/
def ReadFrom (s : HostSession) (msgType : UInt64) (body : List (Value × Value)) : Output → Prop
  | .ClockPong t0 => s.state ≠ .Closed ∧ msgType = CLOCK_PING ∧
      t0 = Int64.ofInt ((intKey body 0).getD 0)
  | .RequestIdr streamId => s.state = .Streaming ∧ msgType = IDR_REQUEST ∧
      streamId = UInt16.ofInt ((intKey body 1).getD 0)
  | .Stats r => s.state = .Streaming ∧ msgType = STATS ∧ r = StatsReport.fromBody body
  | _ => True

section Stats

variable (body : List (Value × Value))

theorem fromBody_reports_iff : (StatsReport.fromBody body).Reports body ↔ StatsInRange body := by
  constructor
  · intro h
    refine ⟨fun key hkey => ?_, fun i hi => ?_, (uint16_exact _).mp h.streamId⟩
    · simp only [List.mem_cons, List.not_mem_nil, or_false] at hkey
      rcases hkey with rfl | rfl | rfl | rfl | rfl
      · exact (int64_exact _).mp h.framesReceived
      · exact (int64_exact _).mp h.framesDropped
      · exact (int64_exact _).mp h.datagrams
      · exact (int64_exact _).mp h.decodeUs
      · exact (int64_exact _).mp h.rttUs
    · have he2e := h.e2eUs
      simp only [StatsReport.fromBody, hi, Option.map_some, Option.some.injEq] at he2e
      exact (int64_exact i).mp he2e
  · intro h
    have hcounter (key : ℤ) (hkey : key ∈ ([0, 1, 2, 4, 5] : List ℤ)) :
        (Int64.ofInt ((intKey body key).getD 0)).toInt = (intKey body key).getD 0 :=
      (int64_exact _).mpr (h.counters key hkey)
    refine ⟨hcounter 0 (by decide), hcounter 1 (by decide), hcounter 2 (by decide),
      hcounter 4 (by decide), hcounter 5 (by decide), ?_, (uint16_exact _).mpr h.streamId⟩
    -- An absent key stays absent.
    cases he2e : intKey body 6 with
    | none => simp only [StatsReport.fromBody, he2e, Option.map_none]
    | some i => simp only [StatsReport.fromBody, he2e, Option.map_some,
        (int64_exact i).mpr (h.e2eUs i he2e)]

end Stats

section Size

variable {s s' : HostSession} {frame : Decoded} {outputs : List Output}

/-- A pending size is kept, until it is applied. -/
theorem Reacts.pending (hr : Reacts s frame s' outputs) (hs : s.pendingGeneration ≠ none)
    (ho : ∀ q, .Reconfigure q ∉ outputs) :
    s'.pendingGeneration ≠ none ∧ s'.params = s.params := by
  cases hr with
  | hello body w h s' _ _ _ _ heq =>
      rw [heq]
      exact ⟨hs, rfl⟩
  -- While one is pending no other is announced.
  | viewport body rw rh w h s' _ hpending _ _ _ _ _ => exact absurd hpending hs
  | reconfigAck body g _ _ _ => exact absurd (List.mem_singleton.mpr rfl) (ho s.params)
  | _ => exact ⟨hs, rfl⟩

/-- A run keeps a pending size, until it is applied. -/
theorem pending_run (frames : List Decoded) : ∀ {s : HostSession}, s.pendingGeneration ≠ none →
    (∀ q, .out (.Reconfigure q) ∉ log s frames) → (s.run frames).params = s.params := by
  induction frames with
  | nil => exact fun _ _ => rfl
  | cons frame frames ih =>
      intro s hs hlog
      have hr := onFrame_reacts s frame
      rcases hr.pending hs (fun q hq => hlog q (by simp only [log, List.cons_append, List.mem_cons,
        reduceCtorEq, List.mem_append, List.mem_map, Entry.out.injEq, exists_eq_right, hq, true_or,
        or_true])) with ⟨hs', hparams⟩
      exact (ih hs' (fun q hq => hlog q (by simp only [log, List.cons_append, List.mem_cons,
        reduceCtorEq, List.mem_append, List.mem_map, Entry.out.injEq, exists_eq_right, hq,
        or_true]))).trans hparams

/-- The size of an announced VIEWPORT stays until it is applied. -/
theorem resizes_of_pending (hs : s.pendingGeneration ≠ none) :
    Resizes s (s.params.width, s.params.height) := by
  refine ⟨rfl, fun u frame p hu hp => ?_⟩
  rw [((onFrame_reacts (s.run u) frame).applies p hp).2.2, pending_run u hs hu]

end Size

section Read

variable {s : HostSession} (body : List (Value × Value))

theorem onFrame_clockPing (hs : s.state ≠ .Closed) :
    s.onFrame (.Message CLOCK_PING body) =
      (s, [.ClockPong (Int64.ofInt ((intKey body 0).getD 0))]) := by
  unfold HostSession.onFrame
  dsimp only
  rw [if_neg hs, if_neg (by decide), if_pos rfl]

theorem onFrame_streaming (hs : s.state = .Streaming) (msgType : UInt64) (hbye : msgType ≠ BYE)
    (hping : msgType ≠ CLOCK_PING) :
    s.onFrame (.Message msgType body) = s.onStreaming msgType body := by
  unfold HostSession.onFrame
  dsimp only
  rw [if_neg (by simp only [hs, reduceCtorEq, not_false_eq_true]), if_neg hbye, if_neg hping, hs]

theorem onFrame_idrRequest (hs : s.state = .Streaming) :
    s.onFrame (.Message IDR_REQUEST body) =
      (s, [.RequestIdr (UInt16.ofInt ((intKey body 1).getD 0))]) :=
  onFrame_streaming body hs IDR_REQUEST (by decide) (by decide)

theorem onFrame_stats (hs : s.state = .Streaming) :
    s.onFrame (.Message STATS body) = (s, [.Stats (StatsReport.fromBody body)]) :=
  onFrame_streaming body hs STATS (by decide) (by decide)

theorem onFrame_hello (hs : s.state = .WaitHello)
    (hversion : intKey body 0 = some (PROTOCOL_VERSION.toNat : ℤ))
    (hcodec : offersCodec body CODEC_HEVC = true) {w h : ℤ} (hw : pairElem body 3 0 = some w)
    (hh : pairElem body 3 1 = some h) :
    (s.onFrame (.Message HELLO body)).1.state = .WaitConfigAck ∧
      (s.onFrame (.Message HELLO body)).1.clientMaxWidth = UInt64.ofInt w ∧
      (s.onFrame (.Message HELLO body)).1.clientMaxHeight = UInt64.ofInt h := by
  have hframe : s.onFrame (.Message HELLO body) = s.onHello HELLO body := by
    unfold HostSession.onFrame
    dsimp only
    rw [if_neg (by simp only [hs, reduceCtorEq, not_false_eq_true]), if_neg (by decide),
      if_neg (by decide), hs]
  rw [hframe]
  unfold HostSession.onHello
  rw [if_neg (fun hne => hne rfl), if_neg (fun hne => hne hversion),
    if_neg (fun hne => hne hcodec), hw, hh]
  exact ⟨rfl, rfl, rfl⟩

theorem onFrame_viewport (hs : s.state = .Streaming) (hpending : s.pendingGeneration = none)
    {w h : ℤ} (hw : pairElem body 0 0 = some w) (hh : pairElem body 0 1 = some h)
    (hne : s.clampViewport (UInt64.ofInt w) (UInt64.ofInt h) ≠
      (s.params.width, s.params.height)) :
    ∃ config, .Send CONFIG config ∈ (s.onFrame (.Message VIEWPORT body)).2 := by
  rw [onFrame_streaming body hs VIEWPORT (by decide) (by decide)]
  change ∃ config, .Send CONFIG config ∈ (s.onViewport body).2
  rcases s.onViewport_cases body with ⟨rw, rh, hwidth, hheight, heq⟩ | ⟨hnone | hnone, -⟩
  rotate_left
  · rw [hw] at hnone
    cases hnone
  · rw [hh] at hnone
    cases hnone
  rw [hw, Option.some.injEq] at hwidth
  rw [hh, Option.some.injEq] at hheight
  rw [heq, ← hwidth, ← hheight, HostSession.announceSize]
  -- None is pending and the size is another, so the VIEWPORT is not ignored.
  rw [if_neg]
  · exact ⟨_, List.mem_singleton.mpr rfl⟩
  · rintro (hsome | ⟨hwidth, hheight⟩)
    · simp only [hpending, Option.isSome_none, Bool.false_eq_true] at hsome
    · exact hne (Prod.ext hwidth hheight)

end Read

section Becomes

variable {s s' : HostSession} {msgType : UInt64} {body : List (Value × Value)}
  {outputs : List Output} (hr : Reacts s (.Message msgType body) s' outputs)

include hr

/-- An output that carries an integer is the reading of a message that was taken. -/
theorem Reacts.reads : ∀ o ∈ outputs, ReadFrom s msgType body o := by
  cases hr with
  | clockPing body hs => exact List.forall_mem_singleton.mpr ⟨hs, rfl, rfl⟩
  | idrRequest body hs => exact List.forall_mem_singleton.mpr ⟨hs, rfl, rfl⟩
  | stats body hs => exact List.forall_mem_singleton.mpr ⟨hs, rfl, rfl⟩
  | fatal _ _ code detail _ _ =>
      simp only [HostSession.fatal, List.mem_cons, List.not_mem_nil, or_false, ReadFrom, ne_eq,
        forall_eq_or_imp, forall_eq, and_self]
  | _ =>
      simp only [List.not_mem_nil, ReadFrom, ne_eq, IsEmpty.forall_iff, implies_true, List.mem_cons,
        or_false, forall_eq, forall_eq_or_imp, and_self]

/-- A CONFIG answers a VIEWPORT that changes the size. -/
theorem Reacts.resizes (hmsg : msgType = VIEWPORT) {config : List (Value × Value)}
    (ho : .Send CONFIG config ∈ outputs) :
    s.state = .Streaming ∧ s.pendingGeneration = none ∧ ∃ w h,
      pairElem body 0 0 = some w ∧ pairElem body 0 1 = some h ∧
      s.clampViewport (UInt64.ofInt w) (UInt64.ofInt h) ≠ (s.params.width, s.params.height) ∧
      Resizes s' (s.clampViewport (UInt64.ofInt w) (UInt64.ofInt h)) := by
  cases hr with
  | viewport body rw rh w h s' hs hpending hwidth hheight hclamp hne heq =>
      refine ⟨hs, hpending, rw, rh, hwidth, hheight, ?_, ?_⟩
      · rw [hclamp]
        exact fun hsame => hne (Prod.mk.inj hsame)
      · have hresizes : Resizes s' (s'.params.width, s'.params.height) :=
          resizes_of_pending (by simp only [heq, ne_eq, reduceCtorEq, not_false_eq_true])
        rw [heq] at hresizes ⊢
        rw [hclamp]
        exact hresizes
  | hello body w h s' _ _ _ _ _ =>
      -- No other reaction sends a CONFIG when the message is a VIEWPORT.
      exact absurd hmsg (by decide)
  | fatal _ _ code detail _ _ =>
      have herror : CONFIG ≠ ERROR := by decide
      simp only [HostSession.fatal, List.mem_cons, Output.Send.injEq, herror, false_and,
        reduceCtorEq, List.not_mem_nil, or_self] at ho
  | configAck body _ _ => exact absurd hmsg (by decide)
  | _ => simp only [List.not_mem_nil, List.mem_cons, reduceCtorEq, or_self] at ho

end Becomes

section Iff

variable {s : HostSession} {msgType : UInt64} {body : List (Value × Value)}

/-- Integers that fit are kept. -/
theorem InRange.keeps (h : InRange s msgType body) : Keeps s msgType body := by
  have hr := onFrame_reacts s (.Message msgType body)
  constructor
  · intro t0 ho
    rcases hr.reads _ ho with ⟨hs, hmsg, rfl⟩
    exact (int64_exact _).mpr (h.clockPing hs hmsg)
  · intro streamId ho
    rcases hr.reads _ ho with ⟨hs, hmsg, rfl⟩
    exact (uint16_exact _).mpr (h.idrRequest hs hmsg)
  · intro r ho
    rcases hr.reads _ ho with ⟨hs, hmsg, rfl⟩
    exact (fromBody_reports_iff body).mpr (h.stats hs hmsg)
  · -- A HELLO that is not accepted stores nothing.
    intro hs hs' mw mh hmw hmh frames
    rcases hr.accepts hs hs' with ⟨hello, hframe, haccepted⟩
    rcases Decoded.Message.inj hframe with ⟨hmsg, rfl⟩
    rcases h.hello hs hmsg haccepted.version haccepted.codec mw mh hmw hmh with ⟨hfits, hfits'⟩
    -- The maximum is fixed once HELLO is accepted.
    have hrun := max_run frames (s := (s.onFrame (.Message msgType body)).1) (by simp only [hs',
      ne_eq, reduceCtorEq, not_false_eq_true])
    rw [hrun.1, hrun.2, (haccepted.max mw mh hmw hmh).1, (haccepted.max mw mh hmw hmh).2]
    exact ⟨(uint64_exact mw).mpr hfits, (uint64_exact mh).mpr hfits'⟩
  · intro config hmsg ho
    rcases hr.resizes hmsg ho with ⟨hs, hpending, w, w', hw, hw', hne, hresizes⟩
    have hannounces := announces_configBody (s.onFrame (.Message msgType body)).1
    rw [← (hr.sends config ho).2] at hannounces
    rcases h.viewport hs hmsg hpending w w' hw hw' hne with ⟨hfits, hfits'⟩
    refine ⟨UInt64.ofInt w, UInt64.ofInt w', ?_, ?_, hannounces, hresizes⟩
    · rw [(uint64_exact w).mpr hfits, hw]
    · rw [(uint64_exact w').mpr hfits', hw']

/-- Integers that are kept fit. -/
theorem Keeps.in_range (h : Keeps s msgType body) : InRange s msgType body := by
  constructor
  · rintro hs rfl
    have ho := onFrame_clockPing body hs
    exact (int64_exact _).mp (h.clockPing _ (by rw [ho]; exact List.mem_singleton.mpr rfl))
  · rintro hs rfl
    have ho := onFrame_idrRequest body hs
    exact (uint16_exact _).mp (h.idrRequest _ (by rw [ho]; exact List.mem_singleton.mpr rfl))
  · rintro hs rfl
    have ho := onFrame_stats body hs
    exact (fromBody_reports_iff body).mp (h.stats _ (by rw [ho]; exact List.mem_singleton.mpr rfl))
  · rintro hs rfl hversion hcodec w w' hw hw'
    rcases onFrame_hello body hs hversion hcodec hw hw' with ⟨hs', hwidth, hheight⟩
    have hkept := h.hello hs hs' w w' hw hw' []
    rw [← uint64_exact w, ← uint64_exact w', ← hwidth, ← hheight]
    exact hkept
  · -- What is announced goes back to two words, and words are in range.
    rintro hs rfl hpending w w' hw hw' hne
    rcases onFrame_viewport body hs hpending hw hw' hne with ⟨config, ho⟩
    rcases h.viewport config rfl ho with ⟨width, height, hwidth, hheight, -, -⟩
    rw [hw, Option.some.injEq] at hwidth
    rw [hw', Option.some.injEq] at hheight
    rw [hwidth, hheight]
    exact ⟨⟨Int.natCast_nonneg _, by exact_mod_cast width.toNat_lt⟩,
      Int.natCast_nonneg _, by exact_mod_cast height.toNat_lt⟩

/-- A session keeps the integers of a message exactly if they fit. -/
theorem keeps_iff : Keeps s msgType body ↔ InRange s msgType body :=
  ⟨Keeps.in_range, InRange.keeps⟩

end Iff

end Session

namespace Conn

open Cbor Control Session WordCast

/-- The first thread whose stream is the one named is asked for an IDR, and no
    other is; none is if there is no such thread. -/
def Tells (named : ℤ) (media media' : List MediaHandle) : Prop :=
  (∃ l m l', media = l ++ m :: l' ∧ media' = l ++ m.requestIdr :: l' ∧
    (m.streamId.toNat : ℤ) = named ∧ ∀ x ∈ l, (x.streamId.toNat : ℤ) ≠ named) ∨
  (media' = media ∧ ∀ x ∈ media, (x.streamId.toNat : ℤ) ≠ named)

/-- What the driver makes of the integers that the session forwards. -/
structure Routes (env : Env) (cfg : HostCfg) (d : Driver) (s : HostSession) (msgType : UInt64)
    (body : List (Value × Value)) : Prop where
  /-- The thread of the stream that is named is told, and no other. -/
  idrRequest : s.state = .Streaming → msgType = IDR_REQUEST →
    Tells ((intKey body 1).getD 0) d.media
      (drive env cfg d (s.onFrame (.Message msgType body)).2).2.media
  /-- The reply carries the time of the ping. -/
  clockPing : s.state ≠ .Closed → msgType = CLOCK_PING → env.writes d.sent.length = .ok () →
    ∃ now : UInt64, (drive env cfg d (s.onFrame (.Message msgType body)).2).2.sent =
      d.sent ++ [encodeFrame CLOCK_PONG [(.Int 0, .Int ((intKey body 0).getD 0)),
        (.Int 1, .Int now.toNat), (.Int 2, .Int now.toNat)]]

section Route

/-- Telling a stream, from the front of the list. -/
theorem tell_cons (m : MediaHandle) (media : List MediaHandle) (streamId : UInt16)
    (f : MediaHandle → MediaHandle) : (Driver.tell { media := m :: media } streamId f).media =
      if m.streamId = streamId then f m :: media
      else m :: (Driver.tell { media } streamId f).media := by
  unfold Driver.tell
  dsimp only
  rw [List.findIdx?_cons]
  by_cases hm : m.streamId = streamId
  · simp only [hm, decide_true, ↓reduceIte, List.modify_zero_cons]
  · cases media.findIdx? (fun m => m.streamId = streamId) <;> simp only [hm, decide_false,
      Bool.false_eq_true, ↓reduceIte, Option.map_none, Option.map_some, List.modify_succ_cons]

/-- Telling a stream tells the first thread that has it. -/
theorem tells_tell (streamId : UInt16) (media : List MediaHandle) : Tells streamId.toNat media
    (Driver.tell { media } streamId MediaHandle.requestIdr).media := by
  -- Ids that differ as words differ as integers.
  have hne {x : MediaHandle} (hx : x.streamId ≠ streamId) :
      (x.streamId.toNat : ℤ) ≠ streamId.toNat :=
    fun h => hx (UInt16.toNat_inj.mp (Int.ofNat_inj.mp h))
  induction media with
  | nil => exact Or.inr ⟨rfl, fun x hx => absurd hx List.not_mem_nil⟩
  | cons m media ih =>
      rw [tell_cons]
      by_cases hm : m.streamId = streamId
      · rw [if_pos hm]
        exact Or.inl ⟨[], m, media, rfl, rfl, by rw [hm], fun x hx => absurd hx List.not_mem_nil⟩
      · rw [if_neg hm]
        rcases ih with ⟨l, m', l', hmedia, hmedia', hm', hl⟩ | ⟨hmedia, hnone⟩
        · refine Or.inl ⟨m :: l, m', l', by rw [hmedia]; rfl, by rw [hmedia']; rfl, hm', ?_⟩
          exact List.forall_mem_cons.mpr ⟨hne hm, hl⟩
        · exact Or.inr ⟨by rw [hmedia], List.forall_mem_cons.mpr ⟨hne hm, hnone⟩⟩

variable (env : Env) (cfg : HostCfg) (d : Driver) {s : HostSession} {msgType : UInt64}
  {body : List (Value × Value)}

/-- Integers that fit are routed as they were sent. -/
theorem routes_of_in_range (h : InRange s msgType body) : Routes env cfg d s msgType body := by
  constructor
  · rintro hs rfl
    rw [onFrame_idrRequest body hs]
    have htells := tells_tell (UInt16.ofInt ((intKey body 1).getD 0)) d.media
    rw [(uint16_exact _).mpr (h.idrRequest hs rfl)] at htells
    exact htells
  · rintro hs rfl hwrite
    rw [onFrame_clockPing body hs, drive, sendFrame, hwrite]
    exact ⟨env.clock d.sent.length, by rw [(int64_exact _).mpr (h.clockPing hs rfl)]; rfl⟩

end Route

/-- The integers of a message keep their value on the way in, exactly if those
    that are read in the state it arrives in fit their fields. In every state of
    every run, what the session forwards and stores is what was sent, an IDR
    request reaches the stream it names and a reply the time of its ping. -/
theorem integers_kept_iff (env : Env) (cfg : HostCfg) (d : Driver) (hostName : String)
    (sessionId : Vector UInt8 16) (params : MediaParams) (extraStreams : List StreamConfig)
    (frames : List Decoded) (msgType : UInt64) (body : List (Value × Value)) :
    let s := (HostSession.new hostName sessionId params extraStreams).run frames
    (Keeps s msgType body ∧ Routes env cfg d s msgType body) ↔ InRange s msgType body :=
  ⟨fun h => keeps_iff.mp h.1, fun h => ⟨keeps_iff.mpr h, routes_of_in_range env cfg d h⟩⟩

/-- A host with its primary stream, in a transport where all goes well. -/
def primaryOnly : HostCfg :=
  { name := "host"
    streams :=
      [{ streamId := 0, params := {}, source := .Synthetic, display := none, x := 0, y := 0 }]
    nonempty := by simp only [ne_eq, List.cons_ne_self, not_false_eq_true] }

def allWell : Env :=
  { acceptBi := none, writes := fun _ => .ok (), clock := fun _ => 0,
    sessionId := Vector.replicate 16 0, lost := false }

/-- The primary stream's thread, before and after a request. -/
def primaryThread (idr : ℕ) : MediaHandle := { streamId := 0, params := {}, idr }

/-- A session that streams. -/
def streamingSession : HostSession :=
  (HostSession.new "host" (Vector.replicate 16 0) {} []).run
    [.Message HELLO [(.Int 0, .Int 1), (.Int 2, .Array [.Int 1])],
      .Message CONFIG_ACK [(.Int 0, .Int 1)]]

/-- A request for stream 65536, which no host has. -/
def farRequest : List (Value × Value) := [(.Int 1, .Int 65536)]

/-- It is taken for one for the primary stream. -/
theorem idr_request_aliased :
    ¬ (Keeps streamingSession IDR_REQUEST farRequest ∧
      Routes allWell primaryOnly { media := [primaryThread 0] } streamingSession IDR_REQUEST
        farRequest) ∧
    intKey farRequest 1 = some 65536 ∧
    (streamingSession.onFrame (.Message IDR_REQUEST farRequest)).2 = [.RequestIdr 0] ∧
    (drive allWell primaryOnly { media := [primaryThread 0] }
      (streamingSession.onFrame (.Message IDR_REQUEST farRequest)).2).2.media =
        [primaryThread 1] := by
  have hs : streamingSession.state = .Streaming := by decide
  have hkey : intKey farRequest 1 = some 65536 := by decide
  have hcast : UInt16.ofInt 65536 = 0 := by decide
  have hframe : (streamingSession.onFrame (.Message IDR_REQUEST farRequest)).2 =
      [.RequestIdr 0] := by
    rw [onFrame_idrRequest farRequest hs, hkey, Option.getD_some, hcast]
  refine ⟨fun h => ?_, hkey, hframe, ?_⟩
  · have hkept := h.1.idrRequest 0 (by rw [hframe]; exact List.mem_singleton.mpr rfl)
    rw [hkey] at hkept
    exact absurd hkept (by decide)
  · rw [hframe]
    decide

end Conn

end LoomHost
