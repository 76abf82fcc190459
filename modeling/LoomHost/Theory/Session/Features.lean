import LoomHost.Lib.WordCast
import LoomHost.Theory.Session.Generations

/-!
# Multi-Display Is Invisible Unless Negotiated

Two runs side by side. A session that has extra streams to offer and a client
that does not ask for them: frame by frame, the outputs and the phases are those
of a session with no extra streams. And where there are none, nothing depends on
whether the client asks.

The extra streams are read in one place, the CONFIG body, and only while the
feature is active. It is activated by HELLO or never, so the two sessions differ
in the stored streams and in nothing else; `withoutExtra` is the one, made from
the other.

## Main definitions

* `trace`: The outputs and the phase of each frame.
* `OffersMulti`: HELLO sets bit 1 of key 5.
* `Unasked`: The frames whose HELLO does not.
* `withoutExtra`: A session that forgets its extra streams.
* `SameButFeatures`: Frames that differ in HELLO key 5 only.

## Theorems

* `client_multi_iff`: The feature bit, as it is read.
* `onFrame_withoutExtra`: One frame of a session that has not activated it.
* `trace_withoutExtra`: All frames of a client that does not ask for it.
* `findSome?_filter_of_none`, `intKey_same`: A lookup heeds its own key only.
* `onFrame_same`, `trace_same`: A session without extra streams.
* `multi_display_invisible`: Both.
-/

namespace LoomHost

namespace Session

open Cbor Control WordCast

/-- The outputs and the phase after each frame. -/
def trace : HostSession → List Decoded → List (List Output × State)
  | _, [] => []
  | s, frame :: frames =>
    ((s.onFrame frame).2, (s.onFrame frame).1.state) :: trace (s.onFrame frame).1 frames

/-- HELLO key 5 is an integer with bit 1 set, in two's complement. -/
def OffersMulti (body : List (Value × Value)) : Prop :=
  ∃ i, intKey body 5 = some i ∧ i / 2 % 2 = 1

/-- A frame that a session waiting for HELLO passes over. -/
def PassedOver (frame : Decoded) : Prop :=
  frame = .Ignored ∨ ∃ body, frame = .Message CLOCK_PING body

/-- The HELLO, the first frame that is not passed over, does not ask for
    multi-display. -/
def Unasked (frames : List Decoded) : Prop :=
  ∀ u body v, frames = u ++ .Message HELLO body :: v → (∀ frame ∈ u, PassedOver frame) →
    ¬ OffersMulti body

/-- The session with its extra streams forgotten. -/
def HostSession.withoutExtra (s : HostSession) : HostSession :=
  { s with extraStreams := [] }

section Bit

/-- The feature bit, as it is read. -/
theorem client_multi_iff (body : List (Value × Value)) :
    (UInt64.ofInt ((intKey body 5).getD 0) &&& FEATURE_MULTI_DISPLAY != 0) = true ↔
      OffersMulti body := by
  have hbit (i : ℤ) : (UInt64.ofInt i &&& FEATURE_MULTI_DISPLAY != 0) = true ↔ i / 2 % 2 = 1 := by
    have hcast := uint64_toNat_ofInt_emod i
    -- The mask leaves the second lowest bit, which is worth 2.
    have hhalf : ((UInt64.ofInt i).toNat &&& 2) / 2 = (UInt64.ofInt i).toNat / 2 % 2 := by
      rw [Nat.and_div_two, Nat.and_one_is_mod]
    have heven := and_even (UInt64.ofInt i).toNat 2 rfl
    have hmask : (UInt64.ofInt i &&& FEATURE_MULTI_DISPLAY).toNat =
        (UInt64.ofInt i).toNat &&& 2 := UInt64.toNat_and _ _
    rw [bne_iff_ne, ne_eq, ← UInt64.toNat_inj, hmask, UInt64.toNat_zero]
    omega
  unfold OffersMulti
  cases intKey body 5 with
  | none =>
      rw [Option.getD_none, hbit]
      simp only [Int.zero_ediv, Int.zero_emod, zero_ne_one, reduceCtorEq, false_and, exists_const]
  | some i =>
      rw [Option.getD_some, hbit]
      simp only [Option.some.injEq, exists_eq_left']

end Bit

section Unaware

variable (s : HostSession)

/-- An inactive session does not read its extra streams. -/
theorem configBody_withoutExtra (hs : s.multiActive = false) :
    s.withoutExtra.configBody = s.configBody := by
  unfold HostSession.configBody HostSession.withoutExtra
  rw [hs]
  rfl

theorem onViewport_withoutExtra (hs : s.multiActive = false) (body : List (Value × Value)) :
    s.withoutExtra.onViewport body =
      ((s.onViewport body).1.withoutExtra, (s.onViewport body).2) := by
  have hclamp (w h : UInt64) : s.withoutExtra.clampViewport w h = s.clampViewport w h := rfl
  rcases s.onViewport_cases body with ⟨rw, rh, hwidth, hheight, heq⟩ | ⟨hnone, heq⟩
  · rcases s.withoutExtra.onViewport_cases body with
      ⟨rw', rh', hwidth', hheight', heq'⟩ | ⟨hnone' | hnone', -⟩
    rotate_left
    · rw [hwidth] at hnone'
      cases hnone'
    · rw [hheight] at hnone'
      cases hnone'
    rw [hwidth, Option.some.injEq] at hwidth'
    rw [hheight, Option.some.injEq] at hheight'
    rw [heq', heq, hclamp, ← hwidth', ← hheight']
    unfold HostSession.announceSize
    by_cases hsame : s.pendingGeneration.isSome ∨
        ((s.clampViewport (UInt64.ofInt rw) (UInt64.ofInt rh)).1 = s.params.width ∧
          (s.clampViewport (UInt64.ofInt rw) (UInt64.ofInt rh)).2 = s.params.height)
    · rw [if_pos hsame]
      exact if_pos hsame
    · -- The CONFIG of an inactive session has no key 6.
      rw [if_neg hsame]
      refine (if_neg hsame).trans (Prod.ext rfl ?_)
      exact congrArg (fun config => [Output.Send CONFIG config])
        (configBody_withoutExtra { s with
          params := { s.params with
            width := (s.clampViewport (UInt64.ofInt rw) (UInt64.ofInt rh)).1
            height := (s.clampViewport (UInt64.ofInt rw) (UInt64.ofInt rh)).2 }
          generation := s.generation + 1
          pendingGeneration := some (s.generation + 1) } hs)
  · -- Neither of the two takes a malformed one.
    rcases s.withoutExtra.onViewport_cases body with
      ⟨rw', rh', hwidth', hheight', -⟩ | ⟨-, heq'⟩
    · rcases hnone with hnone | hnone
      · rw [hwidth'] at hnone
        cases hnone
      · rw [hheight'] at hnone
        cases hnone
    · rw [heq', heq]

theorem onReconfigAck_withoutExtra (body : List (Value × Value)) :
    s.withoutExtra.onReconfigAck body =
      ((s.onReconfigAck body).1.withoutExtra, (s.onReconfigAck body).2) := by
  unfold HostSession.onReconfigAck
  have hpending : s.withoutExtra.pendingGeneration = s.pendingGeneration := rfl
  rw [hpending]
  split
  · split_ifs <;> rfl
  · rfl

theorem onConfigAck_withoutExtra (msgType : UInt64) (body : List (Value × Value)) :
    s.withoutExtra.onConfigAck msgType body =
      ((s.onConfigAck msgType body).1.withoutExtra, (s.onConfigAck msgType body).2) := by
  unfold HostSession.onConfigAck
  have hgen : s.withoutExtra.generation = s.generation := rfl
  rw [hgen]
  split_ifs <;> rfl

theorem onStreaming_withoutExtra (hs : s.multiActive = false) (msgType : UInt64)
    (body : List (Value × Value)) : s.withoutExtra.onStreaming msgType body =
      ((s.onStreaming msgType body).1.withoutExtra, (s.onStreaming msgType body).2) := by
  simp only [HostSession.onStreaming, onViewport_withoutExtra s hs,
    onReconfigAck_withoutExtra s]
  split_ifs <;> rfl

/-- HELLO activates nothing if the client does not ask, and if it does, nothing
    in a session without extra streams. -/
theorem onHello_withoutExtra (msgType : UInt64) (body : List (Value × Value))
    (hbody : ¬ OffersMulti body) : s.withoutExtra.onHello msgType body =
      ((s.onHello msgType body).1.withoutExtra, (s.onHello msgType body).2) := by
  have hmulti : (UInt64.ofInt ((intKey body 5).getD 0) &&& FEATURE_MULTI_DISPLAY != 0) = false :=
    Bool.eq_false_iff.mpr (fun h => hbody ((client_multi_iff body).mp h))
  -- The bit comes first, so the extra streams are not asked for.
  unfold HostSession.onHello
  simp only [hmulti, Bool.false_and]
  rcases pairElem body 3 0 with _ | w <;> rcases pairElem body 3 1 with _ | h <;>
    split_ifs <;> rfl

/-- One frame of a session that has not activated multi-display, and will not. -/
theorem onFrame_withoutExtra (hs : s.multiActive = false) (frame : Decoded)
    (hframe : ∀ body, s.state = .WaitHello → frame = .Message HELLO body → ¬ OffersMulti body) :
    s.withoutExtra.onFrame frame =
      ((s.onFrame frame).1.withoutExtra, (s.onFrame frame).2) := by
  cases frame with
  | Ignored => rfl
  | Message msgType body =>
      unfold HostSession.onFrame
      dsimp only
      -- The state is the same, so the same handler takes the message.
      have hstate : s.withoutExtra.state = s.state := rfl
      rw [hstate]
      split_ifs
      · rfl
      · rfl
      · rfl
      split
      · rename_i hs'
        -- A HELLO here offers no multi-display, and no other message is taken.
        by_cases hmsg : msgType = HELLO
        · exact onHello_withoutExtra s msgType body (hframe body hs' (by rw [hmsg]))
        · unfold HostSession.onHello
          rw [if_pos hmsg, if_pos hmsg]
          rfl
      · exact onConfigAck_withoutExtra s msgType body
      · exact onStreaming_withoutExtra s hs msgType body
      · rfl

/-- A session that has not activated multi-display activates it in HELLO only. -/
theorem Reacts.inactive {s s' : HostSession} {frame : Decoded} {outputs : List Output}
    (hr : Reacts s frame s' outputs) (hs : s.multiActive = false)
    (hframe : ∀ body, s.state = .WaitHello → frame = .Message HELLO body → ¬ OffersMulti body) :
    s'.multiActive = false := by
  cases hr with
  | hello body w h s' hs' hversion hcodec hmax heq =>
      have hbit := mt (client_multi_iff body).mp (hframe body hs' rfl)
      rw [heq]
      exact Bool.and_eq_false_imp.mpr (fun hset => absurd hset hbit)
  | viewport body rw rh w h s' _ _ _ _ _ _ heq =>
      rw [heq]
      exact hs
  | _ => exact hs

/-- A session still waits for HELLO after the frames it passes over only. -/
theorem Reacts.passed_over {s s' : HostSession} {frame : Decoded} {outputs : List Output}
    (hr : Reacts s frame s' outputs) (hs' : s'.state = .WaitHello) :
    s.state = .WaitHello ∧ PassedOver frame := by
  cases hr with
  | ignored => exact ⟨hs', Or.inl rfl⟩
  | closed msgType body hs => simp only [hs, reduceCtorEq] at hs'
  | bye body hs => simp only [reduceCtorEq] at hs'
  | clockPing body hs => exact ⟨hs', Or.inr ⟨body, rfl⟩⟩
  | fatal msgType body code detail hs hack => simp only [HostSession.fatal, reduceCtorEq] at hs'
  | hello body w h s' hs hversion hcodec hmax heq => simp only [heq, reduceCtorEq] at hs'
  | configAck body hs hgen => simp only [reduceCtorEq] at hs'
  | viewport body rw rh w h s' hs _ _ _ _ _ heq => simp only [heq, hs, reduceCtorEq] at hs'
  | reconfigAck body g hs _ _ => simp only [hs, reduceCtorEq] at hs'
  | idrRequest body hs => simp only [hs, reduceCtorEq] at hs'
  | stats body hs => simp only [hs, reduceCtorEq] at hs'
  | input body hs => simp only [hs, reduceCtorEq] at hs'
  | viewportIgnored body hs => simp only [hs, reduceCtorEq] at hs'

/-- The frames after one that is passed over are unasked if all are. -/
theorem Unasked.tail {frame : Decoded} {frames : List Decoded} (h : Unasked (frame :: frames))
    (hframe : PassedOver frame) : Unasked frames := by
  intro u body v heq hu
  refine h (frame :: u) body v (by rw [heq]; rfl) (fun x hx => ?_)
  rcases List.mem_cons.mp hx with rfl | hx
  · exact hframe
  · exact hu x hx

/-- The extra streams of a session do not show, if the client does not ask. -/
theorem trace_withoutExtra (frames : List Decoded) : ∀ s : HostSession, s.multiActive = false →
    (s.state = .WaitHello → Unasked frames) → trace s.withoutExtra frames = trace s frames := by
  induction frames with
  | nil => exact fun s _ _ => rfl
  | cons frame frames ih =>
      intro s hs hframes
      have hframe (body : List (Value × Value)) (hwait : s.state = .WaitHello)
          (heq : frame = .Message HELLO body) : ¬ OffersMulti body :=
        hframes hwait [] body frames (by rw [heq]; rfl) (fun x hx => absurd hx List.not_mem_nil)
      have hr := onFrame_reacts s frame
      -- If HELLO is still to come, this frame was passed over.
      have hrest := ih (s.onFrame frame).1 (hr.inactive hs hframe) (fun hwait =>
        (hframes (hr.passed_over hwait).1).tail (hr.passed_over hwait).2)
      rw [trace, trace, onFrame_withoutExtra s hs frame hframe, hrest]
      rfl

end Unaware

section Features

/-- Entries that a search passes over do not matter to it. -/
theorem findSome?_filter_of_none {α β : Type*} (f : α → Option β) (p : α → Bool)
    (h : ∀ x, p x = false → f x = none) (l : List α) :
    (l.filter p).findSome? f = l.findSome? f := by
  induction l with
  | nil => rfl
  | cons x l ih =>
      by_cases hx : p x = true
      · rw [List.filter_cons_of_pos hx, List.findSome?_cons, List.findSome?_cons, ih]
      · rw [List.filter_cons_of_neg hx, ih, List.findSome?_cons, h x (Bool.eq_false_iff.mpr hx)]

/-- The entry is not under key 5. -/
def isNotFeatures (entry : Value × Value) : Bool := !isKnown [5] entry

theorem features_of_not {entry : Value × Value} (h : isNotFeatures entry = false) :
    entry.1 = .Int 5 := by
  rcases entry with ⟨k, v⟩
  cases k with
  | Int i =>
      have hi : i = 5 := by
        simpa only [isNotFeatures, isKnown, Value.asInt, List.contains_eq_mem, List.mem_singleton,
          Bool.not_eq_eq_eq_not, Bool.not_false, decide_eq_true_eq] using h
      rw [hi]
  | _ => simp only [isNotFeatures, isKnown, Value.asInt, Bool.not_false, Bool.true_eq_false] at h

/-- Two frames that are the same, or HELLOs whose bodies have the same entries
    but for those under key 5. -/
def SameButFeatures (frame frame' : Decoded) : Prop :=
  frame = frame' ∨ ∃ body body', frame = .Message HELLO body ∧ frame' = .Message HELLO body' ∧
    body.filter isNotFeatures = body'.filter isNotFeatures

variable {body body' : List (Value × Value)}
  (h : body.filter isNotFeatures = body'.filter isNotFeatures)

include h

theorem intKey_same (key : ℤ) (hkey : 5 ≠ key) : intKey body key = intKey body' key := by
  -- The lookup passes over the entries under key 5 in either body.
  have hdrop (b : List (Value × Value)) :
      intKey (b.filter isNotFeatures) key = intKey b key := by
    refine findSome?_filter_of_none _ _ (fun e he => ?_) b
    rcases e with ⟨k, v⟩
    cases features_of_not he
    cases v <;> simp only [hkey, ↓reduceIte]
  rw [← hdrop body, h, hdrop]

theorem pairElem_same (key : ℤ) (hkey : 5 ≠ key) (idx : ℕ) :
    pairElem body key idx = pairElem body' key idx := by
  have hdrop (b : List (Value × Value)) :
      pairElem (b.filter isNotFeatures) key idx = pairElem b key idx := by
    refine findSome?_filter_of_none _ _ (fun e he => ?_) b
    rcases e with ⟨k, v⟩
    cases features_of_not he
    cases v <;> simp only [hkey, ↓reduceIte]
  rw [← hdrop body, h, hdrop]

theorem offersCodec_same (codec : UInt64) :
    offersCodec body codec = offersCodec body' codec := by
  have hdrop (b : List (Value × Value)) :
      offersCodec (b.filter isNotFeatures) codec = offersCodec b codec := by
    rw [offersCodec, offersCodec, List.any_filter]
    refine congrArg b.any (funext fun e => ?_)
    cases he : isNotFeatures e with
    | true => rw [Bool.true_and]
    | false =>
        rcases e with ⟨k, v⟩
        cases features_of_not he
        cases v <;> rfl
  rw [← hdrop body, h, hdrop]

/-- Without extra streams HELLO does not depend on the features offered. -/
theorem onHello_same (s : HostSession) (hs : s.extraStreams = []) :
    s.onHello HELLO body = s.onHello HELLO body' := by
  unfold HostSession.onHello
  rw [intKey_same h 0 (by decide), offersCodec_same h, pairElem_same h 3 (by decide),
    pairElem_same h 3 (by decide)]
  rcases pairElem body' 3 0 with _ | w <;> rcases pairElem body' 3 1 with _ | h <;>
    simp only [ne_eq, not_true_eq_false, ↓reduceIte, Bool.not_eq_true, hs, List.isEmpty_nil,
      Bool.not_true, Bool.and_false, ite_not]

end Features

section SameTrace

/-- Without extra streams no frame depends on the features offered. -/
theorem onFrame_same (s : HostSession) (hs : s.extraStreams = []) {frame frame' : Decoded}
    (h : SameButFeatures frame frame') : s.onFrame frame = s.onFrame frame' := by
  rcases h with rfl | ⟨body, body', rfl, rfl, hbody⟩
  · rfl
  · unfold HostSession.onFrame
    dsimp only
    -- HELLO is read before it is accepted, and a violation after that.
    rw [onHello_same hbody s hs]
    rfl

theorem Reacts.extraStreams {s s' : HostSession} {frame : Decoded} {outputs : List Output}
    (hr : Reacts s frame s' outputs) : s'.extraStreams = s.extraStreams := by
  cases hr with
  | hello body w h s' _ _ _ _ heq => rw [heq]
  | viewport body rw rh w h s' _ _ _ _ _ _ heq => rw [heq]
  | _ => rfl

/-- Without extra streams no run depends on the features offered. -/
theorem trace_same {frames frames' : List Decoded}
    (h : List.Forall₂ SameButFeatures frames frames') :
    ∀ s : HostSession, s.extraStreams = [] → trace s frames = trace s frames' := by
  induction h with
  | nil => exact fun s _ => rfl
  | @cons frame frame' _ _ hframe _ ih =>
      intro s hs
      have hnext := ((onFrame_reacts s frame).extraStreams).trans hs
      rw [trace, trace, ← onFrame_same s hs hframe, ih _ hnext]

end SameTrace

/-- Without negotiation multi-display is invisible. A client whose HELLO does
    not ask for it gets, frame by frame, the outputs and phases of a session
    with no extra streams; and in such a session nothing depends on what HELLO
    offers in key 5. -/
theorem multi_display_invisible (hostName : String) (sessionId : Vector UInt8 16)
    (params : MediaParams) (extraStreams : List StreamConfig) (frames : List Decoded) :
    (Unasked frames → trace (HostSession.new hostName sessionId params extraStreams) frames =
      trace (HostSession.new hostName sessionId params []) frames) ∧
    ∀ frames', List.Forall₂ SameButFeatures frames frames' →
      trace (HostSession.new hostName sessionId params []) frames =
        trace (HostSession.new hostName sessionId params []) frames' := by
  refine ⟨fun hframes => ?_, fun frames' h => trace_same h _ rfl⟩
  exact (trace_withoutExtra frames (HostSession.new hostName sessionId params extraStreams) rfl
    (fun _ => hframes)).symm

end Session

end LoomHost
