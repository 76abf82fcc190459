import LoomHost.Core.Session

/-!
# What a Session Does With a Frame

The reactions of a session to one decoded frame, with their guards: every fact
about runs of a session is a case analysis on these.

## Main definitions

* `Acknowledges`: A CONFIG_ACK that the session is waiting for.
* `Reacts`: The reactions to a frame.
* `closes`: Outputs that close the connection.

## Theorems

* `onFrame_reacts`: The reactions are those of `onFrame`.
* `Reacts.closes`, `Reacts.goes_on`: A session closes with a close among its
  outputs, and with nothing else.
-/

namespace LoomHost

namespace Session

open Cbor Control

/-- A message is the CONFIG_ACK the session is waiting for. -/
def Acknowledges (s : HostSession) (msgType : UInt64) (body : List (Value × Value)) : Prop :=
  msgType = CONFIG_ACK ∧
    ((s.state = .WaitConfigAck ∧ intKey body 0 = some (s.generation.toNat : ℤ)) ∨
      (s.state = .Streaming ∧
        ∃ g, s.pendingGeneration = some g ∧ intKey body 0 = some (g.toNat : ℤ)))

/-- The reactions of a session to a frame: the state after it and the outputs. -/
inductive Reacts (s : HostSession) : Decoded → HostSession → List Output → Prop
  | ignored : Reacts s .Ignored s []
  | closed (msgType : UInt64) (body : List (Value × Value)) (hs : s.state = .Closed) :
      Reacts s (.Message msgType body) s []
  | bye (body : List (Value × Value)) (hs : s.state ≠ .Closed) :
      Reacts s (.Message BYE body) { s with state := .Closed } [.Close Errors.NONE]
  | clockPing (body : List (Value × Value)) (hs : s.state ≠ .Closed) :
      Reacts s (.Message CLOCK_PING body) s
        [.ClockPong (Int64.ofInt ((intKey body 0).getD 0))]
  | fatal (msgType : UInt64) (body : List (Value × Value)) (code : UInt64) (detail : String)
      (hs : s.state ≠ .Closed) (hack : ¬ Acknowledges s msgType body) :
      Reacts s (.Message msgType body) (s.fatal code detail).1 (s.fatal code detail).2
  /-- HELLO is accepted, with the client's maximum and the features it offers. -/
  | hello (body : List (Value × Value)) (maxWidth maxHeight : UInt64) (s' : HostSession)
      (hs : s.state = .WaitHello) (hversion : intKey body 0 = some (PROTOCOL_VERSION.toNat : ℤ))
      (hcodec : offersCodec body CODEC_HEVC = true)
      (hmax : (∃ w h, pairElem body 3 0 = some w ∧ pairElem body 3 1 = some h ∧
          maxWidth = UInt64.ofInt w ∧ maxHeight = UInt64.ofInt h) ∨
        ((pairElem body 3 0 = none ∨ pairElem body 3 1 = none) ∧
          maxWidth = s.clientMaxWidth ∧ maxHeight = s.clientMaxHeight))
      (hs' : s' = { s with
        clientMaxWidth := maxWidth
        clientMaxHeight := maxHeight
        multiActive := UInt64.ofInt ((intKey body 5).getD 0) &&& FEATURE_MULTI_DISPLAY != 0 &&
          !s.extraStreams.isEmpty
        generation := 1
        state := .WaitConfigAck }) :
      Reacts s (.Message HELLO body) s'
        [.Send WELCOME s'.welcomeBody, .Send CONFIG s'.configBody]
  /-- The first CONFIG is acknowledged. -/
  | configAck (body : List (Value × Value)) (hs : s.state = .WaitConfigAck)
      (hgen : intKey body 0 = some (s.generation.toNat : ℤ)) :
      Reacts s (.Message CONFIG_ACK body) { s with state := .Streaming }
        [.Send START [], .StartMedia s.multiActive]
  | idrRequest (body : List (Value × Value)) (hs : s.state = .Streaming) :
      Reacts s (.Message IDR_REQUEST body) s
        [.RequestIdr (UInt16.ofInt ((intKey body 1).getD 0))]
  | stats (body : List (Value × Value)) (hs : s.state = .Streaming) :
      Reacts s (.Message STATS body) s [.Stats (StatsReport.fromBody body)]
  | input (body : List (Value × Value)) (hs : s.state = .Streaming) :
      Reacts s (.Message INPUT body) s []
  /-- A VIEWPORT that is malformed, changes nothing, or finds another pending. -/
  | viewportIgnored (body : List (Value × Value)) (hs : s.state = .Streaming) :
      Reacts s (.Message VIEWPORT body) s []
  /-- A VIEWPORT announces a new size. -/
  | viewport (body : List (Value × Value)) (rw rh : ℤ) (w h : UInt64) (s' : HostSession)
      (hs : s.state = .Streaming) (hpending : s.pendingGeneration = none)
      (hwidth : pairElem body 0 0 = some rw) (hheight : pairElem body 0 1 = some rh)
      (hclamp : s.clampViewport (UInt64.ofInt rw) (UInt64.ofInt rh) = (w, h))
      (hne : ¬ (w = s.params.width ∧ h = s.params.height))
      (hs' : s' = { s with
        params := { s.params with width := w, height := h }
        generation := s.generation + 1
        pendingGeneration := some (s.generation + 1) }) :
      Reacts s (.Message VIEWPORT body) s' [.Send CONFIG s'.configBody]
  /-- The pending CONFIG is acknowledged. -/
  | reconfigAck (body : List (Value × Value)) (g : UInt64) (hs : s.state = .Streaming)
      (hpending : s.pendingGeneration = some g) (hgen : intKey body 0 = some (g.toNat : ℤ)) :
      Reacts s (.Message CONFIG_ACK body) { s with pendingGeneration := none }
        [.Reconfigure s.params]

section OnFrame

variable (s : HostSession)

theorem onViewport_reacts (body : List (Value × Value)) (hs : s.state = .Streaming) :
    Reacts s (.Message VIEWPORT body) (s.onViewport body).1 (s.onViewport body).2 := by
  rcases s.onViewport_cases body with ⟨rw, rh, hwidth, hheight, heq⟩ | ⟨-, heq⟩
  · rw [heq]
    unfold HostSession.announceSize
    split
    · exact Reacts.viewportIgnored body hs
    · rename_i hchange
      rcases not_or.mp hchange with ⟨hsome, hne⟩
      have hpending : s.pendingGeneration = none := by
        simpa only [Option.isSome_iff_ne_none, ne_eq, not_not] using hsome
      exact Reacts.viewport body rw rh _ _ _ hs hpending hwidth hheight rfl hne rfl
  · rw [heq]
    exact Reacts.viewportIgnored body hs

theorem onReconfigAck_reacts (body : List (Value × Value)) (hs : s.state = .Streaming) :
    Reacts s (.Message CONFIG_ACK body) (s.onReconfigAck body).1 (s.onReconfigAck body).2 := by
  -- An acknowledgement while streaming is that of the pending generation.
  have hfatal (hne : ∀ g, s.pendingGeneration = some g → intKey body 0 ≠ some (g.toNat : ℤ)) :
      Reacts s (.Message CONFIG_ACK body) s.protocolViolation.1 s.protocolViolation.2 := by
    refine Reacts.fatal CONFIG_ACK body _ _ (by simp only [hs, ne_eq, reduceCtorEq,
      not_false_eq_true]) ?_
    rintro ⟨-, ⟨hs', -⟩ | ⟨-, g, hg, hgen⟩⟩
    · simp only [hs, reduceCtorEq] at hs'
    · exact hne g hg hgen
  unfold HostSession.onReconfigAck
  split
  · rename_i i pending hi hpending
    by_cases hgen : i = pending.toNat
    · rw [if_pos hgen]
      exact Reacts.reconfigAck body pending hs hpending (hgen ▸ hi)
    · rw [if_neg hgen]
      refine hfatal (fun g hg heq => hgen ?_)
      rw [hpending, Option.some.injEq] at hg
      rw [hi, Option.some.injEq] at heq
      rw [heq, hg]
  · rename_i hnone
    exact hfatal (fun g hg hgen => hnone _ g hgen hg)

theorem onHello_reacts (msgType : UInt64) (body : List (Value × Value))
    (hs : s.state = .WaitHello) :
    Reacts s (.Message msgType body) (s.onHello msgType body).1
      (s.onHello msgType body).2 := by
  -- No acknowledgement is awaited yet, so every violation is fatal.
  have hfatal (code : UInt64) (detail : String) : Reacts s (.Message msgType body)
      (s.fatal code detail).1 (s.fatal code detail).2 := by
    refine Reacts.fatal msgType body code detail (by simp only [hs, ne_eq, reduceCtorEq,
      not_false_eq_true]) ?_
    rintro ⟨-, ⟨hs', -⟩ | ⟨hs', -⟩⟩ <;> simp only [hs, reduceCtorEq] at hs'
  unfold HostSession.onHello
  by_cases hmsg : msgType = HELLO
  · subst hmsg
    rw [if_neg (fun hne => hne rfl)]
    by_cases hversion : intKey body 0 = some (PROTOCOL_VERSION.toNat : ℤ)
    · rw [if_neg (fun hne => hne hversion)]
      by_cases hcodec : offersCodec body CODEC_HEVC = true
      · rw [if_neg (fun hne => hne hcodec)]
        dsimp only
        split
        · rename_i w h hw hh
          exact Reacts.hello body _ _ _ hs hversion hcodec
            (Or.inl ⟨w, h, hw, hh, rfl, rfl⟩) rfl
        · -- Either half of the maximum missing keeps the one the session has.
          rename_i hnone
          refine Reacts.hello body _ _ _ hs hversion hcodec (Or.inr ⟨?_, rfl, rfl⟩) rfl
          by_contra hboth
          rcases not_or.mp hboth with ⟨hw, hh⟩
          rcases Option.ne_none_iff_exists'.mp hw with ⟨w, hw⟩
          rcases Option.ne_none_iff_exists'.mp hh with ⟨h, hh⟩
          exact hnone w h hw hh
      · rw [if_pos hcodec]
        exact hfatal _ _
    · rw [if_pos hversion]
      exact hfatal _ _
  · rw [if_pos hmsg]
    exact hfatal _ _

theorem onConfigAck_reacts (msgType : UInt64) (body : List (Value × Value))
    (hs : s.state = .WaitConfigAck) :
    Reacts s (.Message msgType body) (s.onConfigAck msgType body).1
      (s.onConfigAck msgType body).2 := by
  -- A violation is fatal unless it is the acknowledgement of the first CONFIG.
  have hfatal (hne : msgType = CONFIG_ACK → intKey body 0 ≠ some (s.generation.toNat : ℤ)) :
      Reacts s (.Message msgType body) s.protocolViolation.1 s.protocolViolation.2 := by
    refine Reacts.fatal msgType body _ _ ?_ ?_
    · simp only [hs, ne_eq, reduceCtorEq, not_false_eq_true]
    · rintro ⟨hmsg, ⟨-, hgen⟩ | ⟨hs', -⟩⟩
      · exact hne hmsg hgen
      · simp only [hs, reduceCtorEq] at hs'
  unfold HostSession.onConfigAck
  by_cases hmsg : msgType = CONFIG_ACK
  · subst hmsg
    rw [if_neg (fun hne => hne rfl)]
    by_cases hgen : intKey body 0 = some (s.generation.toNat : ℤ)
    · rw [if_neg (fun hne => hne hgen)]
      exact Reacts.configAck body hs hgen
    · rw [if_pos hgen]
      exact hfatal (fun _ => hgen)
  · rw [if_pos hmsg]
    exact hfatal (fun h => absurd h hmsg)

theorem onStreaming_reacts (msgType : UInt64) (body : List (Value × Value))
    (hs : s.state = .Streaming) :
    Reacts s (.Message msgType body) (s.onStreaming msgType body).1
      (s.onStreaming msgType body).2 := by
  unfold HostSession.onStreaming
  split
  · rename_i hmsg
    exact hmsg ▸ Reacts.idrRequest body hs
  split
  · rename_i hmsg
    exact hmsg ▸ Reacts.stats body hs
  split
  · rename_i hmsg
    exact hmsg ▸ onViewport_reacts s body hs
  split
  · rename_i hmsg
    exact hmsg ▸ onReconfigAck_reacts s body hs
  rename_i hack
  split
  · rename_i hmsg
    exact hmsg ▸ Reacts.input body hs
  · refine Reacts.fatal msgType body _ _ ?_ (fun h => hack h.1)
    simp only [hs, ne_eq, reduceCtorEq, not_false_eq_true]

/-- The reactions are those of `onFrame`. -/
theorem onFrame_reacts (frame : Decoded) :
    Reacts s frame (s.onFrame frame).1 (s.onFrame frame).2 := by
  cases frame with
  | Ignored => exact Reacts.ignored
  | Message msgType body =>
      unfold HostSession.onFrame
      dsimp only
      split
      · rename_i hs
        exact Reacts.closed msgType body hs
      rename_i hs
      -- BYE and CLOCK_PING are taken in every state, the others by the state.
      split
      · rename_i hmsg
        exact hmsg ▸ Reacts.bye body hs
      split
      · rename_i hmsg
        exact hmsg ▸ Reacts.clockPing body hs
      split
      · rename_i hs
        exact onHello_reacts s msgType body hs
      · rename_i hs
        exact onConfigAck_reacts s msgType body hs
      · rename_i hs
        exact onStreaming_reacts s msgType body hs
      · rename_i hs'
        exact absurd hs' hs

end OnFrame

/-- Outputs that close the connection. -/
def closes (outputs : List Output) : Bool :=
  outputs.any fun
    | .Close _ => true
    | _ => false

/-- A session that closes has a close among its outputs. -/
theorem Reacts.closes {s s' : HostSession} {frame : Decoded} {outputs : List Output}
    (h : Reacts s frame s' outputs) (hs : s.state ≠ .Closed) (hs' : s'.state = .Closed) :
    closes outputs = true := by
  cases h with
  | bye body _ => rfl
  | fatal msgType body code detail _ _ => rfl
  | ignored => exact absurd hs' hs
  | closed msgType body hclosed => exact absurd hclosed hs
  | hello body w h _ _ _ _ _ heq => simp only [heq, reduceCtorEq] at hs'
  | configAck body _ _ => simp only [reduceCtorEq] at hs'
  | viewport body rw rh w h _ _ _ _ _ _ _ heq => simp only [heq, hs] at hs'
  | _ => exact absurd hs' hs

/-- A session that stays open does not close the connection. -/
theorem Reacts.goes_on {s s' : HostSession} {frame : Decoded} {outputs : List Output}
    (h : Reacts s frame s' outputs) (hs' : s'.state ≠ .Closed) :
    Session.closes outputs = false := by
  cases h with
  | bye body _ => exact absurd rfl hs'
  | fatal msgType body code detail _ _ => exact absurd rfl hs'
  | _ => rfl

end Session

end LoomHost
