import LoomHost.Core.Session
import LoomHost.Theory.Grammar

/-!
# Forward Compatibility

What a newer client may put on the control stream without disturbing an older
host: frames of message types that are not registered, entries with keys that a
message type does not know, and CLOCK_PINGs. Two runs side by side, of the
frames as an older client would send them and of the frames with all that put
in: the states are the same, the outputs to the older client's frames are the
same, and of the new frames only the pings are answered.

The decoder does the work. It drops the entries before a handler can look for
its own keys, so an added entry cannot be the first match of any lookup; and an
unregistered type never reaches the state machine.

## Main definitions

* `Carries`: A frame with an envelope in it.
* `Extends`: A body with unknown entries added.
* `Received`: A frame the older client sends, or one that is put in.
* `onBytes`, `runBytes`: What the session makes of frames.

## Theorems

* `Carries.decodes`: What a frame decodes to.
* `Extends.filter_known`: Added entries are dropped.
* `onBytes_original`, `onBytes_unregistered`, `onBytes_ping`: One frame.
* `runBytes_after`: The states are the same.
* `forward_compatible`: The outputs are the same.
-/

namespace LoomHost

namespace Session

open Cbor Control

variable (fromReader : List UInt8 → Option Rfc8949.Item)

/-- A frame whose body is complete and within the limit, and read as an
    envelope of this type and map. -/
structure Carries (bytes : List UInt8) (i : ℤ) (map : List (Value × Value)) : Prop where
  lead : 4 ≤ bytes.length
  limit : BigEndian.ofBE (bytes.take 4) ≤ MAX_FRAME_BODY
  complete : 4 + BigEndian.ofBE (bytes.take 4) ≤ bytes.length
  nonneg : 0 ≤ i
  value : decode fromReader ((bytes.drop 4).take (BigEndian.ofBE (bytes.take 4))) =
    .ok (.Array [.Int i, .Map map])

/-- The message type does not know the key of an entry: another integer than
    those it knows, or no integer. -/
def Unknown (msgType : UInt64) (entry : Value × Value) : Prop :=
  ∀ allowed, knownKeys msgType = some allowed → isKnown allowed entry = false

/-- A body with unknown entries added anywhere. -/
inductive Extends (msgType : UInt64) : List (Value × Value) → List (Value × Value) → Prop
  | nil : Extends msgType [] []
  | keep {m m' : List (Value × Value)} (entry : Value × Value) (h : Extends msgType m m') :
      Extends msgType (entry :: m) (entry :: m')
  | add {m m' : List (Value × Value)} (entry : Value × Value) (hnew : Unknown msgType entry)
      (h : Extends msgType m m') : Extends msgType m (entry :: m')

/-- A frame of the newer client: one of the older client's, with unknown entries
    added to its body, or one that is put in. -/
inductive Received
  | original (i : ℤ) (m m' : List (Value × Value)) (bytes bytes' : List UInt8)
      (h : Carries fromReader bytes i m) (h' : Carries fromReader bytes' i m')
      (hadded : Extends (UInt64.ofInt i) m m')
  | unregistered (i : ℤ) (m : List (Value × Value)) (bytes : List UInt8)
      (h : Carries fromReader bytes i m) (htype : knownKeys (UInt64.ofInt i) = none)
  | ping (i : ℤ) (m : List (Value × Value)) (bytes : List UInt8)
      (h : Carries fromReader bytes i m) (htype : UInt64.ofInt i = CLOCK_PING)

namespace Received

variable {fromReader}

/-- The frame as the older client sends it, if it does. -/
def before : Received fromReader → Option (List UInt8)
  | .original _ _ _ bytes _ _ _ _ => some bytes
  | _ => none

/-- The frame as the newer client sends it. -/
def after : Received fromReader → List UInt8
  | .original _ _ _ _ bytes' _ _ _ => bytes'
  | .unregistered _ _ bytes _ _ => bytes
  | .ping _ _ bytes _ _ => bytes

end Received

/-- What the session makes of one frame. A frame that does not decode never
    reaches it. -/
def onBytes (s : HostSession) (bytes : List UInt8) : HostSession × List Output :=
  match decodeFrame fromReader bytes with
  | .ok decoded => s.onFrame decoded
  | .error _ => (s, [])

/-- The session after a sequence of frames. -/
def runBytes (s : HostSession) (frames : List (List UInt8)) : HostSession :=
  frames.foldl (fun s bytes => (onBytes fromReader s bytes).1) s

section Frame

variable {fromReader} {bytes bytes' : List UInt8} {i : ℤ} {m m' : List (Value × Value)}

/-- What a frame decodes to. -/
theorem Carries.decodes (h : Carries fromReader bytes i m) : decodeFrame fromReader bytes = .ok
    (match knownKeys (UInt64.ofInt i) with
    | some allowed => .Message (UInt64.ofInt i) (m.filter (isKnown allowed))
    | none => .Ignored) := by
  unfold decodeFrame
  rw [if_neg (not_lt.mpr h.lead)]
  dsimp only
  rw [if_neg (not_lt.mpr h.limit), if_neg (not_lt.mpr h.complete), h.value]
  exact decodeEnvelope_array i m h.nonneg

/-- Added entries are dropped. -/
theorem Extends.filter_known {msgType : UInt64} (h : Extends msgType m m') (allowed : List ℤ)
    (hkeys : knownKeys msgType = some allowed) :
    m'.filter (isKnown allowed) = m.filter (isKnown allowed) := by
  induction h with
  | nil => rfl
  | keep entry _ ih => rw [List.filter_cons, List.filter_cons, ih]
  | add entry hnew _ ih => rw [List.filter_cons, hnew allowed hkeys, if_neg Bool.false_ne_true, ih]

/-- A frame of the older client means the same with unknown entries added. -/
theorem onBytes_original (h : Carries fromReader bytes i m)
    (h' : Carries fromReader bytes' i m') (hadded : Extends (UInt64.ofInt i) m m')
    (s : HostSession) : onBytes fromReader s bytes' = onBytes fromReader s bytes := by
  have hsame : decodeFrame fromReader bytes' = decodeFrame fromReader bytes := by
    rw [h.decodes, h'.decodes]
    cases hkeys : knownKeys (UInt64.ofInt i) with
    | none => rfl
    | some allowed =>
        dsimp only
        rw [hadded.filter_known allowed hkeys]
  unfold onBytes
  rw [hsame]

/-- A frame of an unregistered type is ignored. -/
theorem onBytes_unregistered (h : Carries fromReader bytes i m)
    (htype : knownKeys (UInt64.ofInt i) = none) (s : HostSession) :
    onBytes fromReader s bytes = (s, []) := by
  unfold onBytes
  rw [h.decodes, htype]
  rfl

/-- A CLOCK_PING is answered in a live phase, and changes nothing. -/
theorem onBytes_ping (h : Carries fromReader bytes i m) (htype : UInt64.ofInt i = CLOCK_PING)
    (s : HostSession) : ∃ t0, onBytes fromReader s bytes =
      (s, if s.state = .Closed then [] else [.ClockPong t0]) := by
  have hkeys : knownKeys CLOCK_PING = some [0] := rfl
  unfold onBytes
  rw [h.decodes, htype, hkeys]
  dsimp only [HostSession.onFrame]
  refine ⟨Int64.ofInt ((intKey (m.filter (isKnown [0])) 0).getD 0), ?_⟩
  have hbye : CLOCK_PING ≠ BYE := by decide
  by_cases hs : s.state = .Closed
  · rw [if_pos hs, if_pos hs]
  · rw [if_neg hs, if_neg hs, if_neg hbye, if_pos rfl]

/-- START as it is, and with an entry that START does not know. -/
example : Carries (fromFront Rfc8949.decode) [0, 0, 0, 3, 0x82, 0x05, 0xa0] 5 [] ∧
    Carries (fromFront Rfc8949.decode) [0, 0, 0, 5, 0x82, 0x05, 0xa1, 0x07, 0xf6] 5
      [(.Int 7, .Null)] ∧
    Extends START [] [(.Int 7, .Null)] := by
  refine ⟨⟨by decide, by decide, by decide, by decide, rfl⟩,
    ⟨by decide, by decide, by decide, by decide, rfl⟩, Extends.add _ (fun allowed h => ?_)
      Extends.nil⟩
  cases h
  rfl

end Frame

/-- The session is in the same state after the frames of either client. -/
theorem runBytes_after (frames : List (Received fromReader)) : ∀ s : HostSession,
    runBytes fromReader s (frames.map Received.after) =
      runBytes fromReader s (frames.filterMap Received.before) := by
  induction frames with
  | nil => exact fun s => rfl
  | cons frame frames ih =>
      intro s
      cases frame with
      | original i m m' bytes bytes' h h' hadded =>
          -- Both clients send this frame.
          change runBytes fromReader (onBytes fromReader s bytes').1 _ =
            runBytes fromReader (onBytes fromReader s bytes).1 _
          rw [onBytes_original h h' hadded, ih]
      | unregistered i m bytes h htype =>
          -- Only the newer client sends this frame, and the state stays.
          change runBytes fromReader (onBytes fromReader s bytes).1 _ = _
          rw [onBytes_unregistered h htype, ih]
          rfl
      | ping i m bytes h htype =>
          rcases onBytes_ping h htype s with ⟨t0, hping⟩
          change runBytes fromReader (onBytes fromReader s bytes).1 _ = _
          rw [hping, ih]
          rfl

/-- Forward compatibility is noninterfering. Wherever frames of unregistered
    types and CLOCK_PINGs are put in, and whatever unknown entries are added to
    bodies: at every frame the session is in the state it would be in without
    them, a frame of the older client gets the outputs it would get, and the
    only other outputs are one ClockPong for each ping in a live phase. -/
theorem forward_compatible (s : HostSession) (frames : List (Received fromReader))
    (frame : Received fromReader) :
    let t := runBytes fromReader s (frames.filterMap Received.before)
    runBytes fromReader s (frames.map Received.after) = t ∧
      match frame with
      | .original _ _ _ bytes bytes' _ _ _ =>
        onBytes fromReader t bytes' = onBytes fromReader t bytes
      | .unregistered _ _ bytes _ _ => onBytes fromReader t bytes = (t, [])
      | .ping _ _ bytes _ _ => ∃ t0, onBytes fromReader t bytes =
          (t, if t.state = .Closed then [] else [.ClockPong t0]) := by
  refine ⟨runBytes_after fromReader frames s, ?_⟩
  cases frame with
  | original i m m' bytes bytes' h h' hadded => exact onBytes_original h h' hadded _
  | unregistered i m bytes h htype => exact onBytes_unregistered h htype _
  | ping i m bytes h htype => exact onBytes_ping h htype _

end Session

end LoomHost
