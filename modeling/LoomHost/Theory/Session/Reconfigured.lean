import LoomHost.Theory.Session.Sizes

/-!
# The Sizes the Encoder Is Reopened With

Whatever integers a VIEWPORT or a HELLO carries, a size that comes out of the
clamp can be encoded: even, at least the floor, and at most the host's ceiling
and the client's maximum, the floor apart. The size is computed when the
VIEWPORT arrives and used when its CONFIG is acknowledged, so between the two
the parameters have to keep it; the client's maximum is fixed by then.

## Main definitions

* `Fits`: A size that can be encoded, for a client's maximum.
* `Ready`: While a reconfiguration is pending, its size fits.

## Theorems

* `toNat_and_not_one`: Making a dimension even.
* `clampViewport_fits`: A clamped size fits.
* `Reacts.ready`, `Reacts.reconfigures`: What a frame keeps and what it emits.
* `reconfigured_sizes`: The sizes of a session.
-/

namespace LoomHost

namespace Session

open Cbor Control AckDiscipline WordCast

/-- A size that can be encoded for a client with this maximum: even, no smaller
    than the floor, and within the ceilings of both sides, the floor apart. -/
structure Fits (maxWidth maxHeight width height : UInt64) : Prop where
  even_width : width.toNat % 2 = 0
  even_height : height.toNat % 2 = 0
  width : 640 ≤ width.toNat ∧ width.toNat ≤ max 640 (min 3840 maxWidth.toNat)
  height : 640 ≤ height.toNat ∧ height.toNat ≤ max 640 (min 2160 maxHeight.toNat)

/-- The driver casts such a size to 32 bits without loss. -/
theorem Fits.casts {maxWidth maxHeight width height : UInt64}
    (h : Fits maxWidth maxHeight width height) :
    width.toUInt32.toNat = width.toNat ∧ height.toUInt32.toNat = height.toNat := by
  have hwidth := h.width
  have hheight := h.height
  rw [UInt64.toNat_toUInt32, UInt64.toNat_toUInt32]
  omega

section Clamp

/-- Clearing the lowest bit. -/
theorem toNat_and_not_one (x : UInt64) : (x &&& ~~~1).toNat = x.toNat / 2 * 2 := by
  have hx := x.toNat_lt
  have hmask : (~~~1 : UInt64).toNat = 2 ^ 64 - 2 := rfl
  -- The mask has every bit but the lowest: halved, it is all ones.
  have hhalf : (x.toNat &&& (2 ^ 64 - 2)) / 2 = x.toNat / 2 := by
    rw [Nat.and_div_two, show (2 ^ 64 - 2) / 2 = 2 ^ 63 - 1 from rfl,
      Nat.and_two_pow_sub_one_eq_mod, Nat.mod_eq_of_lt (by omega)]
  have heven := and_even x.toNat (2 ^ 64 - 2) rfl
  rw [UInt64.toNat_and, hmask]
  omega

/-- One dimension of a clamped size is even and no smaller than the floor. -/
theorem clamp_even {x hi y : UInt64} (h : clamp x MIN_DIM hi = some y) :
    (y &&& ~~~1).toNat % 2 = 0 ∧ 640 ≤ (y &&& ~~~1).toNat := by
  -- The floor is even, so evening does not go below it.
  have hfloor : 640 ≤ y.toNat := (clamp_spec h).1
  rw [toNat_and_not_one]
  omega

/-- A clamped size fits. -/
theorem clampViewport_fits (s : HostSession) (w h : UInt64) :
    Fits s.clientMaxWidth s.clientMaxHeight (s.clampViewport w h).1
      (s.clampViewport w h).2 := by
  have hclient := clampViewport_le s w h
  have hhost := clampViewport_le_host s w h
  rcases clampViewport_eq s w h with ⟨cw, ch, hcw, hch, heq⟩
  have hwidth := clamp_even hcw
  have hheight := clamp_even hch
  rw [heq] at hclient hhost ⊢
  have hfloor : MIN_DIM.toNat = 640 := rfl
  have hmaxWidth : HOST_MAX_WIDTH.toNat = 3840 := rfl
  have hmaxHeight : HOST_MAX_HEIGHT.toNat = 2160 := rfl
  rw [hfloor] at hclient
  rw [hmaxWidth, hmaxHeight] at hhost
  exact ⟨hwidth.1, hheight.1, ⟨hwidth.2, by omega⟩, ⟨hheight.2, by omega⟩⟩

end Clamp

/-- While a reconfiguration is pending, its size fits; before HELLO none is. -/
structure Ready (s : HostSession) : Prop where
  waitHello : s.state = .WaitHello → s.pendingGeneration = none
  pending : s.pendingGeneration ≠ none →
    Fits s.clientMaxWidth s.clientMaxHeight s.params.width s.params.height

section Step

variable {s s' : HostSession} {frame : Decoded} {outputs : List Output}

/-- The size of a VIEWPORT fits when it is stored. -/
theorem fits_of_clamp {rw rh : ℤ} {w h : UInt64}
    (hclamp : s.clampViewport (UInt64.ofInt rw) (UInt64.ofInt rh) = (w, h)) :
    Fits s.clientMaxWidth s.clientMaxHeight w h := by
  have hfits := clampViewport_fits s (UInt64.ofInt rw) (UInt64.ofInt rh)
  rw [hclamp] at hfits
  exact hfits

/-- A frame keeps the pending size. -/
theorem Reacts.ready (hr : Reacts s frame s' outputs) (h : Ready s) : Ready s' := by
  cases hr with
  | bye body hs => exact ⟨State.noConfusion, h.pending⟩
  | fatal msgType body code detail hs hack => exact ⟨State.noConfusion, h.pending⟩
  | hello body w w' s' hs hversion hcodec hmax heq =>
      rw [heq]
      exact ⟨State.noConfusion, fun hpending => absurd (h.waitHello hs) hpending⟩
  | configAck body hs hgen => exact ⟨State.noConfusion, h.pending⟩
  | viewport body rw rh w w' s' hs hpending hwidth hheight hclamp hne heq =>
      rw [heq]
      exact ⟨fun hs' => by simp only [hs, reduceCtorEq] at hs', fun _ => fits_of_clamp hclamp⟩
  | reconfigAck body g hs hpending hgen =>
      exact ⟨fun _ => rfl, fun hnone => absurd rfl hnone⟩
  | _ => exact h

/-- The client's maximum is fixed after HELLO. -/
theorem Reacts.keeps_max (hr : Reacts s frame s' outputs) (hs : s.state ≠ .WaitHello) :
    s'.clientMaxWidth = s.clientMaxWidth ∧ s'.clientMaxHeight = s.clientMaxHeight := by
  cases hr with
  | hello body w w' s' hhello _ _ _ heq => exact absurd hhello hs
  | viewport body rw rh w w' s' _ _ _ _ _ _ heq =>
      rw [heq]
      exact ⟨rfl, rfl⟩
  | _ => exact ⟨rfl, rfl⟩

/-- What is applied is the parameters of a pending reconfiguration. -/
theorem Reacts.applies (hr : Reacts s frame s' outputs) (params : MediaParams)
    (ho : .Reconfigure params ∈ outputs) :
    s.state = .Streaming ∧ s.pendingGeneration ≠ none ∧ params = s.params := by
  cases hr with
  | reconfigAck body g hs hpending hgen =>
      rw [List.mem_singleton, Output.Reconfigure.injEq] at ho
      exact ⟨hs, by simp only [hpending, ne_eq, reduceCtorEq, not_false_eq_true], ho⟩
  | fatal msgType body code detail hs hack =>
      simp only [HostSession.fatal, List.mem_cons, reduceCtorEq, List.not_mem_nil, or_self] at ho
  | _ => simp only [List.not_mem_nil, List.mem_cons, reduceCtorEq, or_self] at ho

/-- A size that is applied fits. -/
theorem Reacts.reconfigures (hr : Reacts s frame s' outputs) (h : Ready s) (params : MediaParams)
    (ho : .Reconfigure params ∈ outputs) : s.state ≠ .WaitHello ∧
      Fits s.clientMaxWidth s.clientMaxHeight params.width params.height := by
  rcases hr.applies params ho with ⟨hs, hpending, rfl⟩
  exact ⟨by simp only [hs, ne_eq, reduceCtorEq, not_false_eq_true], h.pending hpending⟩

/-- A size that is announced after the first CONFIG fits. -/
theorem Reacts.announces (hr : Reacts s frame s' outputs) (body : List (Value × Value)) (g : ℤ)
    (ho : .Send CONFIG body ∈ outputs) (hgen : intKey body 0 = some g) (hg : 2 ≤ g) :
    s.state ≠ .WaitHello ∧ Announces body s'.params ∧
      Fits s.clientMaxWidth s.clientMaxHeight s'.params.width s'.params.height := by
  have hbody := (hr.sends body ho).2
  rw [hbody, intKey_configBody, Option.some.injEq] at hgen
  have hannounces : Announces body s'.params := hbody ▸ announces_configBody s'
  cases hr with
  | hello hello w w' s' hs hversion hcodec hmax heq =>
      -- The first CONFIG has generation 1.
      have hone : s'.generation.toNat = 1 := by rw [heq]; rfl
      omega
  | viewport viewport rw rh w w' s' hs hpending hwidth hheight hclamp hne heq =>
      refine ⟨by simp only [hs, ne_eq, reduceCtorEq, not_false_eq_true], hannounces, ?_⟩
      rw [heq]
      exact fits_of_clamp hclamp
  | fatal msgType message code detail hs hack =>
      have herror : CONFIG ≠ ERROR := by decide
      simp only [HostSession.fatal, List.mem_cons, Output.Send.injEq, herror, false_and,
        reduceCtorEq, List.not_mem_nil, or_self] at ho
  | configAck ack hs _ =>
      have hstart : CONFIG ≠ START := by decide
      simp only [List.mem_cons, Output.Send.injEq, hstart, false_and, reduceCtorEq,
        List.not_mem_nil, or_self] at ho
  | _ => simp only [List.not_mem_nil, List.mem_cons, reduceCtorEq, or_self] at ho

/-- A run keeps the pending size. -/
theorem ready_run (frames : List Decoded) :
    ∀ {s : HostSession}, Ready s → Ready (s.run frames) := by
  induction frames with
  | nil => exact fun h => h
  | cons frame frames ih => exact fun h => ih ((onFrame_reacts _ frame).ready h)

/-- After HELLO the client's maximum is that of the whole run. -/
theorem max_run (frames : List Decoded) : ∀ {s : HostSession}, s.state ≠ .WaitHello →
    (s.run frames).clientMaxWidth = s.clientMaxWidth ∧
      (s.run frames).clientMaxHeight = s.clientMaxHeight := by
  induction frames with
  | nil => exact fun _ => ⟨rfl, rfl⟩
  | cons frame frames ih =>
      intro s hs
      have hr := onFrame_reacts s frame
      rcases hr.keeps_max hs with ⟨hwidth, hheight⟩
      rcases ih (hr.keeps hs).1 with ⟨hwidth', hheight'⟩
      exact ⟨hwidth'.trans hwidth, hheight'.trans hheight⟩

end Step

/-- The sizes of a session after the first CONFIG. Whatever the frames carry,
    every size that is announced from the second generation on, and every size
    that is applied, fits the maximum the client gave; the driver casts it
    without loss, and no VIEWPORT makes the clamp panic. -/
theorem reconfigured_sizes (hostName : String) (sessionId : Vector UInt8 16)
    (params : MediaParams) (extraStreams : List StreamConfig) (frames : List Decoded) :
    let s := HostSession.new hostName sessionId params extraStreams
    let t := s.run frames
    (∀ body g, .config body ∈ log s frames → intKey body 0 = some g → 2 ≤ g →
      ∃ p : MediaParams, Announces body p ∧
        Fits t.clientMaxWidth t.clientMaxHeight p.width p.height ∧
        p.width.toUInt32.toNat = p.width.toNat ∧ p.height.toUInt32.toNat = p.height.toNat) ∧
    (∀ p, .out (.Reconfigure p) ∈ log s frames →
        Fits t.clientMaxWidth t.clientMaxHeight p.width p.height ∧
        p.width.toUInt32.toNat = p.width.toNat ∧ p.height.toUInt32.toNat = p.height.toNat) ∧
    (∀ w h, t.clampViewport? w h ≠ none) ∧
    ∀ body, t.onViewport? body = some (t.onViewport body) := by
  intro s t
  -- The maximum in force at a frame after HELLO is that of the whole run.
  have hmax (u : List Decoded) (frame : Decoded) (v : List Decoded)
      (hframes : frames = u ++ frame :: v) (hs : (s.run u).state ≠ .WaitHello) :
      t.clientMaxWidth = (s.run u).clientMaxWidth ∧
        t.clientMaxHeight = (s.run u).clientMaxHeight := by
    have ht : t = (s.run u).run (frame :: v) := by rw [← run_append, ← hframes]
    rw [ht]
    exact max_run (frame :: v) hs
  have hnew : Ready s := ⟨fun _ => rfl, fun hnone => absurd rfl hnone⟩
  refine ⟨fun body g hbody hgen hg => ?_, fun p hp => ?_, fun w h => ?_,
    fun body => (Option.some_get _).symm⟩
  · rcases mem_log.mp hbody with ⟨u, frame, v, hframes, ho⟩
    rcases (onFrame_reacts (s.run u) frame).announces body g ho hgen hg with ⟨hs, hann, hfits⟩
    rw [← (hmax u frame v hframes hs).1, ← (hmax u frame v hframes hs).2] at hfits
    exact ⟨_, hann, hfits, hfits.casts⟩
  · rcases mem_log.mp hp with ⟨u, frame, v, hframes, ho⟩
    rcases (onFrame_reacts (s.run u) frame).reconfigures (ready_run u hnew) p ho with ⟨hs, hfits⟩
    rw [← (hmax u frame v hframes hs).1, ← (hmax u frame v hframes hs).2] at hfits
    exact ⟨hfits, hfits.casts⟩
  · exact Option.isSome_iff_ne_none.mp (t.clampViewport?_isSome w h)

end Session

end LoomHost
