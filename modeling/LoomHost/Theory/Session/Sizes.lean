import LoomHost.Lib.WordCast
import LoomHost.Theory.Session.Language

/-!
# The Sizes a Session Announces

The first CONFIG announces the size the host is configured with. HELLO key 3 is
the client's maximum, the ceiling of the sizes a VIEWPORT asks for afterwards;
it does not bind the first CONFIG.

## Main definitions

* `Capped`: The session knows the client's maximum.
* `AnnouncesWithin`: The primary size in a CONFIG body is within bounds.
* `Accepted`: A HELLO that a session accepts.

## Theorems

* `clampViewport_le`: A clamped size is within the ceiling.
* `Reacts.capped`: Every CONFIG after HELLO is within the client's maximum.
* `configs_within_client`: The sizes of a session.
-/

namespace LoomHost

namespace Session

open Cbor Control AckDiscipline WordCast

section Clamp

/-- A clamp that does not panic stays between its bounds. -/
theorem clamp_spec {x lo hi y : UInt64} (h : clamp x lo hi = some y) :
    lo.toNat ≤ y.toNat ∧ y.toNat ≤ hi.toNat := by
  unfold clamp at h
  rw [Option.ite_none_right_eq_some, Option.some.injEq] at h
  rcases h with ⟨horder, rfl⟩
  split
  · exact ⟨le_rfl, horder⟩
  split
  · exact ⟨horder, le_rfl⟩
  · rename_i hlo hhi
    exact ⟨not_lt.mp hlo, not_lt.mp hhi⟩

/-- One dimension of a clamped size. -/
theorem clamp_even_le {x maxX y : UInt64} (h : clamp x MIN_DIM (max maxX MIN_DIM) = some y) :
    (y &&& ~~~1).toNat ≤ max maxX.toNat MIN_DIM.toNat := by
  calc (y &&& ~~~1).toNat
      ≤ y.toNat := UInt64.and_le_left
    _ ≤ (max maxX MIN_DIM).toNat := (clamp_spec h).2
    _ = max maxX.toNat MIN_DIM.toNat := UInt64.toNat_max _ _

variable (s : HostSession)

/-- A clamped size is what the two clamps give, made even. -/
theorem clampViewport_eq (w h : UInt64) : ∃ cw ch,
    clamp w MIN_DIM (max (min HOST_MAX_WIDTH s.clientMaxWidth) MIN_DIM) = some cw ∧
    clamp h MIN_DIM (max (min HOST_MAX_HEIGHT s.clientMaxHeight) MIN_DIM) = some ch ∧
    s.clampViewport w h = (cw &&& ~~~1, ch &&& ~~~1) := by
  have hget : s.clampViewport? w h = some (s.clampViewport w h) := (Option.some_get _).symm
  unfold HostSession.clampViewport? at hget
  simp only [Option.bind_eq_bind, Option.bind_eq_some_iff, Option.some.injEq] at hget
  rcases hget with ⟨cw, hcw, ch, hch, heq⟩
  exact ⟨cw, ch, hcw, hch, heq.symm⟩

/-- A clamped size is within the client's maximum, the floor apart. -/
theorem clampViewport_le (w h : UInt64) :
    (s.clampViewport w h).1.toNat ≤ max s.clientMaxWidth.toNat MIN_DIM.toNat ∧
    (s.clampViewport w h).2.toNat ≤ max s.clientMaxHeight.toNat MIN_DIM.toNat := by
  have hceiling (host client : UInt64) :
      max (min host client).toNat MIN_DIM.toNat ≤ max client.toNat MIN_DIM.toNat :=
    max_le_max_right _ (UInt64.toNat_min host client ▸ min_le_right _ _)
  rcases clampViewport_eq s w h with ⟨cw, ch, hcw, hch, heq⟩
  rw [heq]
  exact ⟨(clamp_even_le hcw).trans (hceiling _ _), (clamp_even_le hch).trans (hceiling _ _)⟩

/-- A clamped size is within the host's ceiling. -/
theorem clampViewport_le_host (w h : UInt64) :
    (s.clampViewport w h).1.toNat ≤ HOST_MAX_WIDTH.toNat ∧
    (s.clampViewport w h).2.toNat ≤ HOST_MAX_HEIGHT.toNat := by
  have hceiling (host client : UInt64) (hhost : MIN_DIM.toNat ≤ host.toNat) :
      max (min host client).toNat MIN_DIM.toNat ≤ host.toNat :=
    max_le (UInt64.toNat_min host client ▸ min_le_left _ _) hhost
  rcases clampViewport_eq s w h with ⟨cw, ch, hcw, hch, heq⟩
  rw [heq]
  exact ⟨(clamp_even_le hcw).trans (hceiling _ _ (by decide)),
    (clamp_even_le hch).trans (hceiling _ _ (by decide))⟩

end Clamp

/-- The session is past HELLO and knows the client's maximum. -/
structure Capped (mw mh : ℤ) (s : HostSession) : Prop where
  state : s.state ≠ .WaitHello
  width : (s.clientMaxWidth.toNat : ℤ) ≤ mw
  height : (s.clientMaxHeight.toNat : ℤ) ≤ mh

/-- The primary size in a CONFIG body is within these bounds. -/
def AnnouncesWithin (mw mh : ℤ) (body : List (Value × Value)) : Prop :=
  ∃ w h, pairElem body 2 0 = some w ∧ pairElem body 2 1 = some h ∧ w ≤ mw ∧ h ≤ mh

section Step

variable {s s' : HostSession} {frame : Decoded} {outputs : List Output} {mw mh : ℤ}

/-- Once known the client's maximum stays, and bounds every CONFIG. -/
theorem Reacts.capped (hr : Reacts s frame s' outputs) (hmw : 640 ≤ mw) (hmh : 640 ≤ mh)
    (h : Capped mw mh s) :
    Capped mw mh s' ∧ ∀ body, .Send CONFIG body ∈ outputs → AnnouncesWithin mw mh body := by
  have hkeeps := (hr.keeps h.state).1
  have hsends := hr.sends
  cases hr with
  | hello body w w' s' hs _ _ _ heq => exact absurd hs h.state
  | viewport body rw rh w w' s' hs _ _ _ hclamp _ heq =>
      refine ⟨⟨hkeeps, ?_, ?_⟩, fun config hconfig => ?_⟩
      · simp only [heq, h.width]
      · simp only [heq, h.height]
      · -- The size announced is the clamped one.
        rw [(hsends config hconfig).2]
        have hle := clampViewport_le s (UInt64.ofInt rw) (UInt64.ofInt rh)
        rw [hclamp] at hle
        have hfloor : MIN_DIM.toNat = 640 := rfl
        have hwidth := h.width
        have hheight := h.height
        dsimp only at hle
        rw [hfloor] at hle
        refine ⟨w.toNat, w'.toNat, ?_, ?_, by omega, by omega⟩
        · rw [(announces_configBody s').1, heq]
        · rw [(announces_configBody s').2, heq]
  | fatal msgType body code detail _ _ =>
      refine ⟨⟨hkeeps, h.width, h.height⟩, fun config hconfig => ?_⟩
      have herror : CONFIG ≠ ERROR := by decide
      simp only [HostSession.fatal, List.mem_cons, Output.Send.injEq, herror, false_and,
        reduceCtorEq, List.not_mem_nil, or_self] at hconfig
  | configAck body _ _ =>
      refine ⟨⟨hkeeps, h.width, h.height⟩, fun config hconfig => ?_⟩
      have hstart : CONFIG ≠ START := by decide
      simp only [List.mem_cons, Output.Send.injEq, hstart, false_and, reduceCtorEq,
        List.not_mem_nil, or_self] at hconfig
  | _ => exact ⟨⟨hkeeps, h.width, h.height⟩, fun config hconfig => by simp only [List.not_mem_nil,
    List.mem_cons, reduceCtorEq, or_self] at hconfig⟩

/-- From then on every CONFIG of the log is within the client's maximum. -/
theorem configs_capped (hmw : 640 ≤ mw) (hmh : 640 ≤ mh) (frames : List Decoded) :
    ∀ {s : HostSession}, Capped mw mh s →
      ∀ body ∈ configs (log s frames), AnnouncesWithin mw mh body := by
  induction frames with
  | nil => exact fun _ body hbody => absurd hbody List.not_mem_nil
  | cons frame frames ih =>
      intro s h body hbody
      rcases (onFrame_reacts s frame).capped hmw hmh h with ⟨h', hframe⟩
      rcases mem_configs_cons hbody with ho | hbody
      · exact hframe body ho
      · exact ih h' body hbody

end Step

/-- An accepted HELLO: what it offers, the answer, and the client's maximum if
    it has one. -/
structure Accepted (body : List (Value × Value)) (s s' : HostSession) (outputs : List Output) :
    Prop where
  version : intKey body 0 = some (PROTOCOL_VERSION.toNat : ℤ)
  codec : offersCodec body CODEC_HEVC = true
  opened : Opened s s'
  answer : outputs.map .out = opening s'
  max : ∀ mw mh, pairElem body 3 0 = some mw → pairElem body 3 1 = some mh →
    s'.clientMaxWidth = UInt64.ofInt mw ∧ s'.clientMaxHeight = UInt64.ofInt mh

/-- A session leaves its first phase with a HELLO that it accepts. -/
theorem Reacts.accepts {s s' : HostSession} {frame : Decoded} {outputs : List Output}
    (hr : Reacts s frame s' outputs) (hs : s.state = .WaitHello)
    (hs' : s'.state = .WaitConfigAck) :
    ∃ body, frame = .Message HELLO body ∧ Accepted body s s' outputs := by
  cases hr with
  | hello body w h s' _ hversion hcodec hmax heq =>
      refine ⟨body, rfl, hversion, hcodec, ⟨heq ▸ rfl, heq ▸ rfl, heq ▸ rfl⟩, rfl,
        fun mw mh hmw hmh => ?_⟩
      rcases hmax with ⟨w', h', hw', hh', rfl, rfl⟩ | ⟨hnone | hnone, -, -⟩
      · rw [hmw, Option.some.injEq] at hw'
        rw [hmh, Option.some.injEq] at hh'
        simp only [heq, hw', hh', and_self]
      · simp only [hmw, reduceCtorEq] at hnone
      · simp only [hmh, reduceCtorEq] at hnone
  | fatal msgType body code detail _ _ => simp only [HostSession.fatal, reduceCtorEq] at hs'
  | configAck body _ _ => simp only [reduceCtorEq] at hs'
  | viewport body rw rh w h s' hstate => simp only [hstate, reduceCtorEq] at hs
  | reconfigAck body g hstate _ _ => simp only [hstate, reduceCtorEq] at hs
  | bye body _ => simp only [reduceCtorEq] at hs'
  | _ => simp only [hs, reduceCtorEq] at hs'

/-- The sizes of a session whose accepted HELLO carries the client's maximum:
    the first CONFIG announces the size the host is configured with, the others
    one within the maximum. -/
theorem configs_within_client (hostName : String) (sessionId : Vector UInt8 16)
    (params : MediaParams) (extraStreams : List StreamConfig) (frames u v : List Decoded)
    (hello : List (Value × Value)) (mw mh : ℤ) (hframes : frames = u ++ .Message HELLO hello :: v)
    (hwait : ((HostSession.new hostName sessionId params extraStreams).run u).state =
      .WaitHello)
    (haccept : ((HostSession.new hostName sessionId params extraStreams).run
      (u ++ [.Message HELLO hello])).state = .WaitConfigAck)
    (hwidth : pairElem hello 3 0 = some mw) (hheight : pairElem hello 3 1 = some mh)
    (hmw : 640 ≤ mw) (hmh : 640 ≤ mh) :
    ∃ first rest, configs (log (HostSession.new hostName sessionId params extraStreams) frames) =
        first :: rest ∧
      Announces first params ∧ ∀ body ∈ rest, AnnouncesWithin mw mh body := by
  have hspoken := spoken_of_new hostName sessionId params extraStreams u
  rcases hspoken.of_waitHello hwait with ⟨hnew, hnone⟩
  rw [run_append, hnew] at haccept
  rw [hframes, log_append, hnew, configs_append, hnone, List.nil_append, log, configs_append]
  have hstate : ((HostSession.new hostName sessionId params extraStreams).onFrame
      (.Message HELLO hello)).1.state = .WaitConfigAck := haccept
  -- Accepting a HELLO answers it with the first CONFIG, and keeps its maximum.
  rcases (onFrame_reacts _ _).accepts rfl hstate with
    ⟨body, hbody, -, -, hopened, houtputs, hmax⟩
  rw [← (Decoded.Message.inj hbody).2] at hmax
  rcases hmax mw mh hwidth hheight with ⟨hmaxWidth, hmaxHeight⟩
  generalize (HostSession.new hostName sessionId params extraStreams).onFrame
    (.Message HELLO hello) = r at houtputs hopened hmaxWidth hmaxHeight hstate ⊢
  have hcapped : Capped mw mh r.1 :=
    ⟨by simp only [hstate, ne_eq, reduceCtorEq, not_false_eq_true],
      hmaxWidth ▸ uint64_toNat_ofInt_le mw (by omega),
      hmaxHeight ▸ uint64_toNat_ofInt_le mh (by omega)⟩
  refine ⟨r.1.configBody, configs (log r.1 v), ?_, ?_, configs_capped hmw hmh v hcapped⟩
  · rw [houtputs]
    rfl
  · have hannounces := announces_configBody r.1
    rw [hopened.params] at hannounces
    exact hannounces

/-- The default host, 2560 by 1440, and a client that decodes up to 1920 by 1080
    and asks for 1920 by 1200. -/
def cappedHello : List (Value × Value) :=
  [(.Int 0, .Int 1), (.Int 2, .Array [.Int 1]), (.Int 3, .Array [.Int 1920, .Int 1080])]

def cappedFrames : List Decoded :=
  [.Message HELLO cappedHello, .Message CONFIG_ACK [(.Int 0, .Int 1)],
    .Message VIEWPORT [(.Int 0, .Array [.Int 1920, .Int 1200])]]

theorem configs_within_client_viewport :
    ∃ first rest, configs (log sampleHost cappedFrames) = first :: rest ∧
      Announces first {} ∧ ∀ body ∈ rest, AnnouncesWithin 1920 1080 body :=
  configs_within_client "host" (Vector.replicate 16 0) {} [] cappedFrames []
    [.Message CONFIG_ACK [(.Int 0, .Int 1)],
      .Message VIEWPORT [(.Int 0, .Array [.Int 1920, .Int 1200])]]
    cappedHello 1920 1080 rfl rfl rfl rfl rfl (by decide) (by decide)

/-- The first CONFIG does not heed the client's maximum. -/
theorem first_config_over_client :
    (sampleHost.run [.Message HELLO cappedHello]).state = .WaitConfigAck ∧
    pairElem cappedHello 3 0 = some 1920 ∧ pairElem cappedHello 3 1 = some 1080 ∧
    ∃ body ∈ configs (log sampleHost [.Message HELLO cappedHello]),
      ¬ AnnouncesWithin 1920 1080 body := by
  refine ⟨rfl, rfl, rfl, _, List.mem_singleton.mpr rfl, ?_⟩
  rintro ⟨w, h, hw, -, hle, -⟩
  have hwidth : (2560 : ℤ) = w := Option.some.inj hw
  omega

end Session

end LoomHost
