import LoomHost.Core.Transport
import LoomHost.Theory.Cbor

/-!
# Control-Stream Round Trip

A sequence of messages written to the control stream is read back message by
message. The length prefix says where a frame ends, so reading never leaves a
frame too early or too late; the body of a frame decodes to the envelope that
was encoded; and of its entries exactly the ones the message type knows are
left, with their values up to the order of map entries.

The CBOR reader is assumed to decode what RFC 8949 says, as far as its nesting
limit goes. The assumption is about basic items only: what it makes of tags,
floats and unassigned simple values does not matter here.

## Main definitions

* `ReadsItems`: The assumption on the CBOR reader.
* `Sendable`: A message the host or the client may send.
* `Delivered`: What becomes of a message.

## Theorems

* `readFrame_append`: A frame is read off the front of the stream.
* `readFrames_flatMap`: A stream of frames is read frame by frame.
* `decode_encodeFrame`: An encoded frame decodes to its message.
* `control_round_trip`: A sequence of messages, end to end.
-/

namespace LoomHost

namespace Conn

open Control Cbor WordCast

/-- The CBOR reader decodes basic items as RFC 8949 says, nested at most
    `limit` deep. -/
def ReadsItems (limit : ℕ) (fromReader : List UInt8 → Option Rfc8949.Item) : Prop :=
  ∀ bytes item rest, item.Basic → Rfc8949.decodeItem limit bytes = some (item, rest) →
    fromReader bytes = some item

/-- A message type and a body. -/
abbrev Message := UInt64 × List (Value × Value)

/-- The envelope is encodable, its encoding fits a frame, and the reader's
    nesting limit allows it. -/
structure Sendable (limit : ℕ) (m : Message) : Prop where
  encodable : (envelope m.1 m.2).Encodable
  fits : (envelope m.1 m.2).toCanonical.length ≤ MAX_FRAME_BODY
  nesting : (envelope m.1 m.2).depth ≤ limit

/-- What becomes of a message: one of an unregistered type is ignored, and any
    other keeps its type and, in some order, the entries with known keys, their
    values up to the order of map entries. -/
def Delivered (m : Message) (result : Except Error Decoded) : Prop :=
  match knownKeys m.1 with
  | none => result = .ok .Ignored
  | some allowed => ∃ kept body,
      List.Forall₂ (fun p q => q.1 = p.1 ∧ Reorders p.2 q.2) (m.2.filter (isKnown allowed)) kept ∧
      kept.Perm body ∧ result = .ok (.Message m.1 body)

section Framing

theorem readExact_append (bytes rest : List UInt8) (ending : StreamEnd) :
    readExact { data := bytes ++ rest, ending } bytes.length =
      (.ok bytes, { data := rest, ending }) := by
  rw [readExact, if_pos, List.take_left, List.drop_left]
  rw [List.length_append]
  omega

/-- A frame is read off the front of the stream. -/
theorem readFrame_append (body rest : List UInt8) (ending : StreamEnd)
    (hlen : body.length ≤ MAX_FRAME_BODY) :
    readFrame { data := BigEndian.toBE 4 body.length ++ body ++ rest, ending } =
      (.ok (.Frame (BigEndian.toBE 4 body.length ++ body)), { data := rest, ending }) := by
  have hprefix := readExact_append (BigEndian.toBE 4 body.length) (body ++ rest) ending
  rw [BigEndian.length_toBE, ← List.append_assoc] at hprefix
  have hfits : body.length < 256 ^ 4 := by
    simp only [MAX_FRAME_BODY] at hlen
    omega
  rw [readFrame, hprefix]
  dsimp only
  rw [BigEndian.ofBE_toBE_of_lt 4 body.length hfits, if_neg (by omega), readExact_append]

/-- A stream of frames is read frame by frame, up to its end. -/
theorem readFrames_flatMap {α : Type*} (encode : α → List UInt8) :
    ∀ msgs : List α, (∀ m ∈ msgs, (encode m).length ≤ MAX_FRAME_BODY) →
      readFrames { data := msgs.flatMap fun m => BigEndian.toBE 4 (encode m).length ++ encode m,
                    ending := .Finished } =
        (msgs.map fun m => BigEndian.toBE 4 (encode m).length ++ encode m, .ok ()) := by
  intro msgs
  induction msgs with
  | nil => exact fun _ => readFrames_eof _ _ rfl
  | cons m rest ih =>
      intro hlen
      have hframe := readFrame_append (encode m)
        (rest.flatMap fun m => BigEndian.toBE 4 (encode m).length ++ encode m) .Finished
        (hlen m List.mem_cons_self)
      rw [List.flatMap_cons, readFrames_frame _ _ _ hframe,
        ih (fun m' hm' => hlen m' (List.mem_cons_of_mem _ hm')), List.map_cons]

end Framing

section Envelope

/-- The item of an encodable value is basic. -/
theorem basic_item (v : Value) : v.Encodable → v.item.Basic := by
  induction v using Value.induct with
  | harray a ih =>
      rintro ⟨-, hall⟩
      rw [Value.item, Rfc8949.Item.Basic, Rfc8949.basicAll_iff, itemAll_eq]
      intro x hx
      rcases List.mem_map.mp hx with ⟨v, hv, rfl⟩
      exact ih v hv ((encodableAll_iff a).mp hall v hv)
  | hmap m ih =>
      rintro ⟨-, hall⟩
      rw [Value.item, Rfc8949.Item.Basic, Rfc8949.basicPairs_iff, itemPairs_eq]
      intro x hx
      rcases List.mem_map.mp hx with ⟨p, hp, rfl⟩
      have he := (encodablePairs_iff m).mp hall p hp
      exact ⟨(ih p hp).1 he.1, (ih p hp).2 he.2⟩
  | hint i => exact fun _ => trivial
  | hbytes b => exact fun _ => trivial
  | htext s => exact fun _ => trivial
  | hbool b => exact fun _ => trivial
  | hfloat f => exact fun hf => absurd hf id
  | hnull => exact fun _ => trivial

/-- Sorting keeps a value encodable. -/
theorem encodable_sorted (v : Value) : v.Encodable → v.sorted.Encodable := by
  induction v using Value.induct with
  | harray a ih =>
      rintro ⟨hlen, hall⟩
      rw [Value.sorted, Value.Encodable, sortedAll_eq, List.length_map, encodableAll_iff]
      refine ⟨hlen, fun x hx => ?_⟩
      rcases List.mem_map.mp hx with ⟨v, hv, rfl⟩
      exact ih v hv ((encodableAll_iff a).mp hall v hv)
  | hmap m ih =>
      rintro ⟨hlen, hall⟩
      rw [sorted_map, Value.Encodable, List.length_map, length_byKey, encodablePairs_iff]
      refine ⟨hlen, fun x hx => ?_⟩
      rcases List.mem_map.mp hx with ⟨p, hp, rfl⟩
      rw [mem_byKey] at hp
      have he := (encodablePairs_iff m).mp hall p hp
      exact ⟨(ih p hp).1 he.1, (ih p hp).2 he.2⟩
  | hint i => exact id
  | hbytes b => exact id
  | htext s => exact id
  | hbool b => exact id
  | hfloat f => exact id
  | hnull => exact id

theorem asInt_sorted (v : Value) : v.sorted.asInt = v.asInt := by
  cases v <;> rfl

/-- A reader that decodes RFC 8949 reads an encoded value back in normal form. -/
theorem decode_toCanonical (limit : ℕ) (fromReader : List UInt8 → Option Rfc8949.Item)
    (hreader : ReadsItems limit fromReader) (v : Value) (hv : v.Encodable)
    (hdepth : v.depth ≤ limit) : decode fromReader v.toCanonical = .ok v.sorted := by
  -- The encoding is that of the item of the sorted value, with nothing after it.
  have hitem := decodeItem_encode v hv limit hdepth []
  rw [List.append_nil] at hitem
  have hread := hreader _ _ _ (basic_item _ (encodable_sorted v hv)) hitem
  rw [Value.toCanonical, decode, hread]
  dsimp only
  rw [fromCiborium_item]

theorem encodeFrame_eq (m : Message)
    (hlen : (envelope m.1 m.2).toCanonical.length ≤ MAX_FRAME_BODY) :
    encodeFrame m.1 m.2 = BigEndian.toBE 4 (envelope m.1 m.2).toCanonical.length ++
      (envelope m.1 m.2).toCanonical := by
  -- A length within the limit survives the cast to 32 bits.
  have hcast : (UInt32.ofNat (envelope m.1 m.2).toCanonical.length).toNat =
      (envelope m.1 m.2).toCanonical.length := by
    refine UInt32.toNat_ofNat_of_lt ?_
    simp only [MAX_FRAME_BODY, UInt32.size] at hlen ⊢
    omega
  rw [encodeFrame, hcast]

/-- The envelope of a frame is what is decoded. -/
theorem decodeFrame_encodeFrame (limit : ℕ) (fromReader : List UInt8 → Option Rfc8949.Item)
    (hreader : ReadsItems limit fromReader) (m : Message) (hm : Sendable limit m) :
    decodeFrame fromReader (encodeFrame m.1 m.2) =
      decodeEnvelope (envelope m.1 m.2).sorted := by
  have hlen := hm.fits
  have htake := @List.take_left _ (BigEndian.toBE 4 (envelope m.1 m.2).toCanonical.length)
    (envelope m.1 m.2).toCanonical
  have hdrop := @List.drop_left _ (BigEndian.toBE 4 (envelope m.1 m.2).toCanonical.length)
    (envelope m.1 m.2).toCanonical
  have hfits : (envelope m.1 m.2).toCanonical.length < 256 ^ 4 := by
    simp only [MAX_FRAME_BODY] at hlen
    omega
  rw [BigEndian.length_toBE] at htake hdrop
  -- The prefix says the length of what follows it, so none of the checks fails.
  rw [encodeFrame_eq m hlen, decodeFrame, List.length_append, BigEndian.length_toBE,
    if_neg (by omega), htake, hdrop, BigEndian.ofBE_toBE_of_lt 4 _ hfits, if_neg (by omega),
    if_neg (by omega), List.take_length,
    decode_toCanonical limit fromReader hreader _ hm.encodable hm.nesting]
  rfl

theorem sorted_envelope (m : Message) : (envelope m.1 m.2).sorted =
    .Array [.Int m.1.toNat, .Map ((byKey m.2).map fun p => (p.1.sorted, p.2.sorted))] := by
  rw [envelope, Value.sorted, sortedAll, sortedAll, sortedAll, sorted_map, Value.sorted]

/-- The entries that are kept do not depend on the normal form. -/
theorem filter_known (allowed : List ℤ) (body : List (Value × Value)) :
    ((body.map fun p => (p.1.sorted, p.2.sorted)).filter (isKnown allowed)) =
      (body.filter (isKnown allowed)).map fun p => (p.1.sorted, p.2.sorted) := by
  rw [List.filter_map]
  refine congrArg _ (List.filter_congr (fun p _ => ?_))
  simp only [Function.comp_apply, isKnown, asInt_sorted]

/-- A key that is known is an integer, so sorting leaves it alone. -/
theorem sorted_of_known (allowed : List ℤ) (p : Value × Value) (h : isKnown allowed p = true) :
    p.1.sorted = p.1 := by
  rcases p with ⟨k, v⟩
  cases k with
  | Int i => rfl
  | _ => simp only [isKnown, Value.asInt, Bool.false_eq_true] at h

/-- An encoded frame decodes to its message. -/
theorem decode_encodeFrame (limit : ℕ) (fromReader : List UInt8 → Option Rfc8949.Item)
    (hreader : ReadsItems limit fromReader) (m : Message) (hm : Sendable limit m) :
    Delivered m (decodeFrame fromReader (encodeFrame m.1 m.2)) := by
  have hpos : (m.1.toNat : ℤ) ≥ 0 := Int.natCast_nonneg _
  rw [decodeFrame_encodeFrame limit fromReader hreader m hm, sorted_envelope, Delivered]
  simp only [decodeEnvelope, Value.asArray, Value.asInt, Value.asMap, if_pos hpos,
    uint64_ofInt_toNat]
  cases hkeys : knownKeys m.1 with
  | none => rfl
  | some allowed =>
      -- The kept entries in the order sent; what is decoded has them in normal form.
      refine ⟨(m.2.filter (isKnown allowed)).map fun p => (p.1.sorted, p.2.sorted), _, ?_, ?_, rfl⟩
      · rw [List.forall₂_map_right_iff, List.forall₂_same]
        intro p hp
        exact ⟨sorted_of_known allowed p (List.mem_filter.mp hp).2, reorders_sorted p.2⟩
      · rw [filter_known]
        exact (((byKey_perm m.2).symm.filter _).map _)

end Envelope

/-- The round trip. The encoded frames of any messages, one after the other,
    are read back one by one, each to its own message and nothing else, and
    then the stream ends. -/
theorem control_round_trip (limit : ℕ) (fromReader : List UInt8 → Option Rfc8949.Item)
    (hreader : ReadsItems limit fromReader) (msgs : List Message)
    (hmsgs : ∀ m ∈ msgs, Sendable limit m) :
    ∃ results,
      receive fromReader
          { data := msgs.flatMap fun m => encodeFrame m.1 m.2, ending := .Finished } =
        (results, .ok ()) ∧
      List.Forall₂ Delivered msgs results := by
  -- The framing gives the encoded messages back, whatever is in them.
  have hframes : readFrames
      { data := msgs.flatMap fun m => encodeFrame m.1 m.2, ending := .Finished } =
        (msgs.map fun m => encodeFrame m.1 m.2, .ok ()) := by
    have hread := readFrames_flatMap (fun m : Message => (envelope m.1 m.2).toCanonical) msgs
      (fun m hm => (hmsgs m hm).fits)
    have hflat : (msgs.flatMap fun m => encodeFrame m.1 m.2) = msgs.flatMap fun m =>
        BigEndian.toBE 4 (envelope m.1 m.2).toCanonical.length ++
          (envelope m.1 m.2).toCanonical :=
      List.flatMap_congr (fun m hm => encodeFrame_eq m (hmsgs m hm).fits)
    have hmap : (msgs.map fun m => encodeFrame m.1 m.2) = msgs.map fun m =>
        BigEndian.toBE 4 (envelope m.1 m.2).toCanonical.length ++
          (envelope m.1 m.2).toCanonical :=
      List.map_congr_left (fun m hm => encodeFrame_eq m (hmsgs m hm).fits)
    rw [hflat, hmap]
    exact hread
  refine ⟨(msgs.map fun m => encodeFrame m.1 m.2).map (decodeFrame fromReader), ?_, ?_⟩
  · rw [receive, hframes]
  · -- Each is then decoded on its own.
    rw [List.map_map, List.forall₂_map_right_iff, List.forall₂_same]
    exact fun m hm => decode_encodeFrame limit fromReader hreader m (hmsgs m hm)

/-- A registered message with an unknown key, an unregistered one and an empty
    one, read by the reference decoder with a nesting limit of 256. -/
def sampleMessages : List Message :=
  [(VIEWPORT, [(.Int 24, .Null), (.Int 0, .Array [.Int 640, .Int (-2 ^ 64)])]),
    (0x99, [(.Int 0, .Map [(.Int 2, .Text "b"), (.Int 1, .Bytes [0xff])])]), (START, [])]

theorem control_round_trip_sample :
    ReadsItems 256 (fun bytes => (Rfc8949.decodeItem 256 bytes).map Prod.fst) ∧
    (∀ m ∈ sampleMessages, Sendable 256 m) ∧
    ∃ results,
      receive (fun bytes => (Rfc8949.decodeItem 256 bytes).map Prod.fst)
          { data := sampleMessages.flatMap fun m => encodeFrame m.1 m.2, ending := .Finished } =
        (results, .ok ()) ∧
      List.Forall₂ Delivered sampleMessages results := by
  have hreader : ReadsItems 256 (fun bytes => (Rfc8949.decodeItem 256 bytes).map Prod.fst) := by
    intro bytes item rest _ h
    exact congrArg (Option.map Prod.fst) h
  -- Three messages to check, each by evaluation.
  have hmsgs : ∀ m ∈ sampleMessages, Sendable 256 m := by
    intro m hm
    simp only [sampleMessages, List.mem_cons, List.not_mem_nil, or_false] at hm
    rcases hm with rfl | rfl | rfl
    · refine ⟨?_, by decide, by decide⟩
      simp only [envelope, Value.Encodable, EncodableAll, EncodablePairs]
      decide
    · refine ⟨?_, by decide, by decide⟩
      simp only [envelope, Value.Encodable, EncodableAll, EncodablePairs]
      decide
    · refine ⟨?_, by decide, by decide⟩
      simp only [envelope, Value.Encodable, EncodableAll, EncodablePairs]
      decide
  exact ⟨hreader, hmsgs, control_round_trip 256 _ hreader sampleMessages hmsgs⟩

end Conn

end LoomHost
