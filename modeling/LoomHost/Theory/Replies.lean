import LoomHost.Theory.Control
import LoomHost.Theory.Conn
import LoomHost.Theory.Session.Language

/-!
# What the Host Sends Survives Its Own Registry

The bodies of the host's messages are put together by hand in the session and in
the driver, and the keys a message type knows are a table of their own. Every
message the host sends, in any state, has only keys the table knows and only
integers that CBOR can carry, so a decoder with the same table gets the message
back, its entries in some order.

The lengths of texts and lists are not limited where they are put in; a frame
that is within the limit has room for none that would be too long.

## Main definitions

* `Value.Ranged`: No floats, and integers in range.
* `HostMessage`: The messages the host composes.
* `Puts`: The messages a session and its driver put on the control stream.

## Theorems

* `encodable_of_length`: What fits a frame is encodable.
* `HostMessage.known`, `HostMessage.ranged`, `HostMessage.depth`: The messages.
* `Puts.host_message`: What is sent is a message the host composes.
* `sessionLoop_sent`: So is every frame of a driver.
* `replies_round_trip`: What the host sends is decoded.
-/

namespace LoomHost

namespace Cbor

mutual

/-- No floats, and integers that fit a CBOR head. -/
def Value.Ranged : Value → Prop
  | .Int i => -2 ^ 64 ≤ i ∧ i < 2 ^ 64
  | .Array a => RangedAll a
  | .Map m => RangedPairs m
  | .Float _ => False
  | _ => True

def RangedAll : List Value → Prop
  | [] => True
  | v :: a => v.Ranged ∧ RangedAll a

def RangedPairs : List (Value × Value) → Prop
  | [] => True
  | (k, v) :: m => (k.Ranged ∧ v.Ranged) ∧ RangedPairs m

end

section Length

theorem rangedAll_iff (a : List Value) : RangedAll a ↔ ∀ v ∈ a, v.Ranged := by
  induction a with
  | nil => simp only [RangedAll, List.not_mem_nil, false_implies, implies_true]
  | cons v a ih => rw [RangedAll, ih, List.forall_mem_cons]

theorem rangedPairs_iff (m : List (Value × Value)) :
    RangedPairs m ↔ ∀ p ∈ m, p.1.Ranged ∧ p.2.Ranged := by
  induction m with
  | nil => simp only [RangedPairs, List.not_mem_nil, false_implies, implies_true]
  | cons p m ih => rw [RangedPairs, ih, List.forall_mem_cons]

/-- Every encoding has its head at least. -/
theorem length_encodeInto_pos (v : Value) : 1 ≤ v.encodeInto.length := by
  cases v with
  | Int i =>
      rw [Value.encodeInto, encodeInt]
      split_ifs
      · exact length_encodeHead_pos 0 _
      · exact length_encodeHead_pos 1 _
  | Bytes b =>
      have hhead := length_encodeHead_pos 2 (UInt64.ofNat b.length)
      rw [Value.encodeInto, List.length_append]
      omega
  | Text s =>
      have hhead := length_encodeHead_pos 3 (UInt64.ofNat s.utf8ByteSize)
      rw [Value.encodeInto, List.length_append]
      omega
  | Array a =>
      have hhead := length_encodeHead_pos 4 (UInt64.ofNat a.length)
      rw [Value.encodeInto, List.length_append]
      omega
  | Map m =>
      have hhead := length_encodeHead_pos 5 (UInt64.ofNat m.length)
      -- The entries follow in canonical order, behind the head.
      rw [encodeMap_eq, List.length_append]
      omega
  | Bool b => exact le_rfl
  | Float f =>
      rw [Value.encodeInto, encodeFloat]
      dsimp only
      -- A float has one byte in front of its bits, in each of the three widths.
      split_ifs <;> simp only [List.length_cons] <;> omega
  | Null => exact le_rfl

/-- A list is no longer than the concatenation of something for each item. -/
theorem length_le_length_flatMap {α β : Type*} (f : α → List β) (hf : ∀ x, 1 ≤ (f x).length)
    (l : List α) : l.length ≤ (l.flatMap f).length := by
  induction l with
  | nil => exact le_rfl
  | cons x l ih =>
      have hx := hf x
      rw [List.flatMap_cons, List.length_append, List.length_cons]
      omega

/-- A value in range is encodable if its encoding is not too long: the encoding
    is longer than anything in it. -/
theorem encodable_of_length (v : Value) :
    v.Ranged → v.encodeInto.length < 2 ^ 64 → v.Encodable := by
  induction v using Value.induct with
  | hint i => exact fun hi _ => hi
  | hbytes b =>
      intro _ hlen
      rw [Value.encodeInto, List.length_append] at hlen
      exact lt_of_le_of_lt (Nat.le_add_left _ _) hlen
  | htext s =>
      intro _ hlen
      rw [Value.encodeInto, List.length_append, length_toUTF8] at hlen
      exact lt_of_le_of_lt (Nat.le_add_left _ _) hlen
  | harray a ih =>
      intro hranged hlen
      rw [Value.encodeInto, encodeElems_eq, List.length_append] at hlen
      refine ⟨?_, (encodableAll_iff a).mpr (fun v hv => ?_)⟩
      · -- Every item takes a byte at least.
        have hle := length_le_length_flatMap Value.encodeInto length_encodeInto_pos a
        omega
      · have hle := length_le_flatMap Value.encodeInto a v hv
        exact ih v hv ((rangedAll_iff a).mp hranged v hv) (by omega)
  | hmap m ih =>
      intro hranged hlen
      rw [encodeMap_eq, List.length_append] at hlen
      have hentry (p : Value × Value) : 1 ≤ (p.1.encodeInto ++ p.2.encodeInto).length := by
        have hkey := length_encodeInto_pos p.1
        rw [List.length_append]
        omega
      refine ⟨?_, (encodablePairs_iff m).mpr (fun p hp => ?_)⟩
      · -- So does every entry, and sorting keeps their number.
        have hle := length_le_length_flatMap _ hentry (byKey m)
        rw [length_byKey] at hle
        omega
      · have hle := length_le_flatMap (fun p : Value × Value => p.1.encodeInto ++ p.2.encodeInto)
          (byKey m) p ((mem_byKey m p).mpr hp)
        rw [List.length_append] at hle
        have hp' := (rangedPairs_iff m).mp hranged p hp
        exact ⟨(ih p hp).1 hp'.1 (by omega), (ih p hp).2 hp'.2 (by omega)⟩
  | hbool b => exact fun _ _ => trivial
  | hfloat f => exact fun hf => absurd hf id
  | hnull => exact fun _ _ => trivial

end Length

end Cbor

namespace Conn

open Cbor Control Session

/-- The messages the host composes. -/
inductive HostMessage : Message → Prop
  | welcome (s : HostSession) : HostMessage (WELCOME, s.welcomeBody)
  | config (s : HostSession) : HostMessage (CONFIG, s.configBody)
  | start : HostMessage (START, [])
  | error (code : UInt64) (detail : String) :
      HostMessage (ERROR, [(.Int 0, .Int code.toNat), (.Int 1, .Text detail)])
  | clockPong (t0 : Int64) (now : UInt64) : HostMessage
      (CLOCK_PONG, [(.Int 0, .Int t0.toInt), (.Int 1, .Int now.toNat), (.Int 2, .Int now.toNat)])

/-- The messages a session and its driver put on the control stream: what the
    session sends, the driver's reply to a CLOCK_PING, at whatever time, and the
    ERRORs the driver sends itself. -/
inductive Puts (s : HostSession) (frames : List Decoded) : Message → Prop
  | send (msgType : UInt64) (body : List (Value × Value))
      (h : .out (.Send msgType body) ∈ log s frames) : Puts s frames (msgType, body)
  | clockPong (t0 : Int64) (now : UInt64) (h : .out (.ClockPong t0) ∈ log s frames) :
      Puts s frames (CLOCK_PONG,
        [(.Int 0, .Int t0.toInt), (.Int 1, .Int now.toNat), (.Int 2, .Int now.toNat)])
  | error (code : UInt64) : Puts s frames (ERROR, errorBody code)

section Messages

variable {m : Message}

/-- The table knows every key of the host's messages. -/
theorem HostMessage.known (hm : HostMessage m) :
    ∃ allowed, knownKeys m.1 = some allowed ∧ m.2.filter (isKnown allowed) = m.2 := by
  cases hm with
  | welcome s =>
      refine ⟨_, rfl, ?_⟩
      unfold HostSession.welcomeBody
      cases s.multiActive <;> rfl
  | config s =>
      refine ⟨_, rfl, ?_⟩
      unfold HostSession.configBody
      cases s.multiActive <;> rfl
  | start => exact ⟨_, rfl, rfl⟩
  | error code detail => exact ⟨_, rfl, rfl⟩
  | clockPong t0 now => exact ⟨_, rfl, rfl⟩

theorem ranged_extraEntry (c : StreamConfig) : (HostSession.extraEntry c).Ranged := by
  have hid := c.streamId.toNat_lt
  have hx := c.x.toInt_lt
  have hx' := c.x.le_toInt
  have hy := c.y.toInt_lt
  have hy' := c.y.le_toInt
  have hwidth := c.params.width.toNat_lt
  have hheight := c.params.height.toNat_lt
  have hrefresh := c.params.refresh.toNat_lt
  have hbitrate := c.params.bitrateKbps.toNat_lt
  simp only [HostSession.extraEntry, Value.Ranged, RangedPairs, RangedAll, and_true]
  omega

/-- The integers of the host's messages are in range. -/
theorem HostMessage.ranged (hm : HostMessage m) : (envelope m.1 m.2).Ranged := by
  cases hm with
  | welcome s =>
      -- Its integers are constants.
      have htype : WELCOME.toNat = 2 := rfl
      have hversion : PROTOCOL_VERSION.toNat = 1 := rfl
      have hfeatures : FEATURE_MULTI_DISPLAY.toNat = 2 := rfl
      unfold HostSession.welcomeBody
      cases s.multiActive <;>
        simp only [envelope, Value.Ranged, RangedPairs, RangedAll, htype, hversion, hfeatures,
          if_true, if_false, Bool.false_eq_true, List.append_nil, List.cons_append,
          List.nil_append, and_true] <;>
        omega
  | config s =>
      -- Its integers are fields of at most 64 bits.
      have hgeneration := s.generation.toNat_lt
      have hcodec := s.params.codec.toNat_lt
      have hwidth := s.params.width.toNat_lt
      have hheight := s.params.height.toNat_lt
      have hrefresh := s.params.refresh.toNat_lt
      have haudio := s.params.audio.toNat_lt
      have hbitrate := s.params.bitrateKbps.toNat_lt
      have hextra : RangedAll (s.extraStreams.map HostSession.extraEntry) := by
        refine (rangedAll_iff _).mpr (fun v hv => ?_)
        rcases List.mem_map.mp hv with ⟨c, -, rfl⟩
        exact ranged_extraEntry c
      have htype : CONFIG.toNat = 3 := rfl
      unfold HostSession.configBody
      cases s.multiActive <;>
        simp only [envelope, Value.Ranged, RangedPairs, RangedAll, htype, hextra, if_true, if_false,
          Bool.false_eq_true, List.append_nil, List.cons_append, List.nil_append, and_true] <;>
        omega
  | start =>
      simp only [envelope, START, UInt64.reduceToNat, Nat.cast_ofNat, Value.Ranged, RangedAll,
        Int.reducePow, Int.reduceNeg, Int.neg_ofNat_le_ofNat, Int.reduceLT, and_self, RangedPairs]
  | error code detail =>
      have hcode := code.toNat_lt
      have htype : ERROR.toNat = 64 := rfl
      simp only [envelope, Value.Ranged, RangedPairs, RangedAll, htype, and_true]
      omega
  | clockPong t0 now =>
      -- The client's time is signed.
      have hlt := t0.toInt_lt
      have hle := t0.le_toInt
      have hnow := now.toNat_lt
      have htype : CLOCK_PONG.toNat = 49 := rfl
      simp only [envelope, Value.Ranged, RangedPairs, RangedAll, htype, and_true]
      omega

/-- The host's messages are nested five deep at most. -/
theorem HostMessage.depth (hm : HostMessage m) : (envelope m.1 m.2).depth ≤ 5 := by
  cases hm with
  | welcome s =>
      unfold HostSession.welcomeBody
      cases s.multiActive <;> exact Nat.le_of_ble_eq_true rfl
  | config s =>
      -- The extra streams are an array of maps, the deepest part there is.
      have hextra : depthAll (s.extraStreams.map HostSession.extraEntry) ≤ 2 := by
        refine (depthAll_le_iff _ 2).mpr (fun v hv => ?_)
        rcases List.mem_map.mp hv with ⟨c, -, rfl⟩
        simp only [HostSession.extraEntry, Value.depth, depthPairs, max_self, depthAll, zero_add,
          zero_le, sup_of_le_right, sup_of_le_left, Nat.reduceAdd, Std.le_refl]
      unfold HostSession.configBody
      cases s.multiActive with
      | false => exact Nat.le_of_ble_eq_true rfl
      | true =>
          simp only [if_true, List.cons_append, List.nil_append, envelope, Value.depth, depthPairs,
            depthAll]
          omega
  | start => decide
  | error code detail =>
      simp only [envelope, Value.depth, depthAll, depthPairs, max_self, zero_add, zero_le,
        sup_of_le_left, sup_of_le_right, Nat.reduceAdd, Nat.reduceLeDiff]
  | clockPong t0 now =>
      simp only [envelope, Value.depth, depthAll, depthPairs, max_self, zero_add, zero_le,
        sup_of_le_left, sup_of_le_right, Nat.reduceAdd, Nat.reduceLeDiff]

end Messages

section Sent

/-- What a session sends is a message the host composes. -/
theorem host_message_of_send {s s' : HostSession} {frame : Decoded} {outputs : List Output}
    (hr : Reacts s frame s' outputs) (msgType : UInt64) (body : List (Value × Value))
    (ho : .Send msgType body ∈ outputs) : HostMessage (msgType, body) := by
  cases hr with
  | fatal _ _ code detail hs hack =>
      simp only [HostSession.fatal, List.mem_cons, List.not_mem_nil, or_false, reduceCtorEq,
        Output.Send.injEq] at ho
      rcases ho with ⟨rfl, rfl⟩
      exact HostMessage.error code detail
  | hello hello w h s' hs hversion hcodec hmax heq =>
      simp only [List.mem_cons, List.not_mem_nil, or_false, Output.Send.injEq] at ho
      rcases ho with ⟨rfl, rfl⟩ | ⟨rfl, rfl⟩
      · exact HostMessage.welcome s'
      · exact HostMessage.config s'
  | configAck ack hs hgen =>
      simp only [List.mem_cons, List.not_mem_nil, or_false, reduceCtorEq, Output.Send.injEq] at ho
      rcases ho with ⟨rfl, rfl⟩
      exact HostMessage.start
  | viewport viewport rw rh w h s' hs hpending hwidth hheight hclamp hne heq =>
      simp only [List.mem_cons, List.not_mem_nil, or_false, Output.Send.injEq] at ho
      rcases ho with ⟨rfl, rfl⟩
      exact HostMessage.config s'
  | _ => simp only [List.not_mem_nil, List.mem_cons, reduceCtorEq, or_self] at ho

/-- What is put on the control stream is a message the host composes. -/
theorem Puts.host_message {s : HostSession} {frames : List Decoded} {m : Message}
    (h : Puts s frames m) : HostMessage m := by
  cases h with
  | send msgType body h =>
      rcases mem_log.mp h with ⟨u, frame, v, -, ho⟩
      exact host_message_of_send (onFrame_reacts (s.run u) frame) msgType body ho
  | clockPong t0 now h => exact HostMessage.clockPong t0 now
  | error code => exact HostMessage.error code (Errors.name code)

variable (env : Env) (cfg : HostCfg) (fromReader : List UInt8 → Option Rfc8949.Item)

/-- The driver has written nothing but messages the host composes. -/
def HostSent (d : Driver) : Prop :=
  ∀ bytes ∈ d.sent, ∃ m, HostMessage m ∧ bytes = encodeFrame m.1 m.2

/-- A message the host composes, written before anything else. -/
theorem HostSent.write {α : Type*} {d : Driver} (h : HostSent d) (msgType : UInt64)
    (body : List (Value × Value)) (hm : HostMessage (msgType, body))
    (rest : Driver → Except IoError α × Driver) (hrest : ∀ d, HostSent d → HostSent (rest d).2) :
    HostSent (match sendFrame env d msgType body with
      | (.ok (), d) => rest d
      | (.error e, d) => (.error e, d)).2 := by
  cases hwrite : env.writes d.sent.length with
  | error e =>
      rw [sendFrame_error env d msgType body e hwrite]
      exact h
  | ok _ =>
      rw [sendFrame_ok env d msgType body hwrite]
      refine hrest _ (fun bytes hbytes => ?_)
      rcases List.mem_append.mp hbytes with hbytes | hbytes
      · exact h bytes hbytes
      · exact ⟨_, hm, List.mem_singleton.mp hbytes⟩

/-- Applying outputs writes the messages among them. -/
theorem HostSent.drive (outputs : List Output) : ∀ {d : Driver}, HostSent d →
    (∀ msgType body, .Send msgType body ∈ outputs → HostMessage (msgType, body)) →
    HostSent (drive env cfg d outputs).2 := by
  induction outputs with
  | nil => exact fun h _ => h
  | cons o outputs ih =>
      intro d h hm
      have hrest : ∀ msgType body, .Send msgType body ∈ outputs → HostMessage (msgType, body) :=
        fun msgType body ho => hm msgType body (List.mem_cons_of_mem o ho)
      cases o with
      | Send msgType body =>
          exact h.write env msgType body (hm msgType body List.mem_cons_self)
            (Conn.drive env cfg · outputs) (fun d hd => ih hd hrest)
      | ClockPong t0 =>
          exact h.write env CLOCK_PONG _ (HostMessage.clockPong t0 (env.clock d.sent.length))
            (Conn.drive env cfg · outputs) (fun d hd => ih hd hrest)
      | StartMedia multi => exact ih (d := { d with media := _ }) h hrest
      | RequestIdr streamId => exact ih (d := d.tell _ _) h hrest
      | Reconfigure params => exact ih (d := d.tell _ _) h hrest
      | Stats r => exact ih h hrest
      | Close code => exact h

/-- So does the session loop, whatever the client sends. -/
theorem sessionFrames_sent (n : ℕ) : ∀ (s : HostSession) (recv : RecvStream) (d : Driver),
    recv.data.length = n → HostSent d →
      HostSent (sessionFrames env cfg fromReader s recv d).2 := by
  induction n using Nat.strong_induction_on with
  | h n ih =>
      intro s recv d hn hd
      -- The induction is on the bytes left to read.
      rw [sessionFrames]
      split
      · rename_i bytes recv' hread
        have hlen := length_readFrame recv recv' bytes hread
        split
        · rename_i decoded hdecode
          have hdriven := hd.drive env cfg (s.onFrame decoded).2
            (host_message_of_send (onFrame_reacts s decoded))
          dsimp only
          split
          · rename_i done d' heq
            rw [heq] at hdriven
            split_ifs
            · exact hdriven
            · exact hdriven
            · exact ih _ (hn ▸ hlen) _ recv' d' rfl hdriven
          · rename_i e d' heq
            rw [heq] at hdriven
            exact hdriven
        · -- The driver answers a bad frame itself.
          exact hd.write env ERROR _ (HostMessage.error _ _)
            (fun d => (.ok (), d.finish.close Errors.PROTOCOL_VIOLATION "bad frame"))
            (fun d hd => hd)
      · exact hd
      · exact hd

/-- Every frame the driver of a session writes is a message the host composes. -/
theorem sessionLoop_sent : HostSent (sessionLoop env cfg fromReader).2 := by
  have hnone : HostSent {} := fun bytes hbytes => absurd hbytes List.not_mem_nil
  unfold sessionLoop
  split
  · exact sessionFrames_sent env cfg fromReader _ _ _ {} rfl hnone
  · exact hnone

end Sent

/-- A message the host composes is delivered whole. -/
theorem HostMessage.delivered {m : Message} (hm : HostMessage m) (limit : ℕ)
    (fromReader : List UInt8 → Option Rfc8949.Item) (hreader : ReadsItems limit fromReader)
    (hlimit : 5 ≤ limit) (hfits : (envelope m.1 m.2).toCanonical.length ≤ MAX_FRAME_BODY) :
    ∃ body, decodeFrame fromReader (encodeFrame m.1 m.2) = .ok (.Message m.1 body) ∧
      Reorders (.Map m.2) (.Map body) := by
  have hlen : (envelope m.1 m.2).encodeInto.length < 2 ^ 64 := by
    simp only [MAX_FRAME_BODY, Value.toCanonical] at hfits
    omega
  have hsendable : Sendable limit m :=
    ⟨encodable_of_length _ hm.ranged hlen, hfits, hm.depth.trans hlimit⟩
  have hdelivered := decode_encodeFrame limit fromReader hreader m hsendable
  rcases hm.known with ⟨allowed, hkeys, hknown⟩
  rw [Delivered, hkeys] at hdelivered
  dsimp only at hdelivered
  rw [hknown] at hdelivered
  rcases hdelivered with ⟨kept, body, hkept, hperm, hdecode⟩
  -- Keys come back as they are, values reordered inside.
  have hkeys : List.Forall₂ Reorders (m.2.map Prod.fst) (kept.map Prod.fst) := by
    rw [List.forall₂_map_left_iff, List.forall₂_map_right_iff]
    exact hkept.imp (fun p q h => h.1 ▸ Reorders.refl _)
  have hvalues : List.Forall₂ Reorders (m.2.map Prod.snd) (kept.map Prod.snd) := by
    rw [List.forall₂_map_left_iff, List.forall₂_map_right_iff]
    exact hkept.imp (fun p q h => h.2)
  exact ⟨body, hdecode, Reorders.map hkeys hvalues hperm⟩

/-- Everything the host sends survives its own registry. In every run of every
    session, each message put on the control stream, if its encoding fits a
    frame, decodes to the same type and the same body up to the order of map
    entries. -/
theorem replies_round_trip (limit : ℕ) (fromReader : List UInt8 → Option Rfc8949.Item)
    (hreader : ReadsItems limit fromReader) (hlimit : 5 ≤ limit) (hostName : String)
    (sessionId : Vector UInt8 16) (params : MediaParams) (extraStreams : List StreamConfig)
    (frames : List Decoded) (m : Message)
    (hm : Puts (HostSession.new hostName sessionId params extraStreams) frames m)
    (hfits : (envelope m.1 m.2).toCanonical.length ≤ MAX_FRAME_BODY) :
    ∃ body, decodeFrame fromReader (encodeFrame m.1 m.2) = .ok (.Message m.1 body) ∧
      Reorders (.Map m.2) (.Map body) :=
  hm.host_message.delivered limit fromReader hreader hlimit hfits

/-- The time of a ping from before the client's epoch. -/
def earlyPing : Int64 := Int64.ofInt (-5)

/-- The reply to it. -/
def earlyPong : Message :=
  (CLOCK_PONG, [(.Int 0, .Int earlyPing.toInt), (.Int 1, .Int (7 : UInt64).toNat),
    (.Int 2, .Int (7 : UInt64).toNat)])

/-- The reference decoder, with a nesting limit of 256, reads the reply. -/
theorem replies_round_trip_pong :
    ∃ body, decodeFrame (fun bytes => (Rfc8949.decodeItem 256 bytes).map Prod.fst)
        (encodeFrame earlyPong.1 earlyPong.2) = .ok (.Message earlyPong.1 body) ∧
      Reorders (.Map earlyPong.2) (.Map body) := by
  have hpong : .out (.ClockPong earlyPing) ∈
      log (HostSession.new "host" (Vector.replicate 16 0) {} [])
        [.Message CLOCK_PING [(.Int 0, .Int (-5))]] :=
    List.mem_cons_of_mem _ List.mem_cons_self
  exact replies_round_trip 256 _ (fun bytes item rest _ h => congrArg (Option.map Prod.fst) h)
    (by decide) "host" (Vector.replicate 16 0) {} [] _ _ (Puts.clockPong earlyPing 7 hpong)
    (by decide)

end Conn

end LoomHost
