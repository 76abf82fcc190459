import Mathlib.Algebra.Order.Floor.Div
import LoomHost.Core.Datagram

/-!
# Fragmentation Round Trip

What `fragment` cuts, `decodeWithStreams` accepts, and the payloads put the
body together again.

A header that says what the decoder checks is `Valid`, and encoding one and
decoding it gives it back. The headers `fragment` builds are valid as long as
the fragment count fits its 16 bits, which the bound on the body says. Every
payload is a piece of the body at its fragment's place, and the pieces cover
it, so the order of arrival and duplicates do not matter.

## Main definitions

* `Valid`: What the decoder checks of a header.
* `Accepts`: The streams the decoder knows.
* `fragCount`, `chunk`, `header`: The parts of a fragmented body.

## Theorems

* `decode_encode`: Decoding an encoded valid header.
* `mem_fragment`: The datagrams of a body.
* `decode_fragment`: Every datagram of a body decodes to its own header.
* `chunk_covers`: The payloads cover the body.
* `fragment_round_trip`: The round trip.
-/

namespace LoomHost

namespace Datagram

/-- What the decoder checks of a header. -/
structure DatagramHeader.Valid (h : DatagramHeader) : Prop where
  index : h.fragIndex < h.fragCount
  last : h.lastFragment = (h.fragIndex == h.fragCount - 1)

/-- The streams the decoder knows: the two that are always there and the
    negotiated ones. -/
def Accepts (extra : List UInt16) (streamId : UInt16) : Prop :=
  streamId = 0 ∨ streamId = 1 ∨ streamId ∈ extra

instance (extra : List UInt16) (streamId : UInt16) : Decidable (Accepts extra streamId) :=
  inferInstanceAs (Decidable (streamId = 0 ∨ streamId = 1 ∨ streamId ∈ extra))

section Header

variable (h : DatagramHeader) (p : List UInt8)

theorem new_valid (keyframe : Bool) (streamId : UInt16) (frameSeq : UInt32)
    (fragIndex fragCount : UInt16) (hlt : fragIndex < fragCount) :
    (DatagramHeader.new keyframe streamId frameSeq fragIndex fragCount).Valid := by
  have hpos : fragCount > 0 := by
    rw [gt_iff_lt, UInt16.lt_iff_toNat_lt]
    rw [UInt16.lt_iff_toNat_lt] at hlt
    simp only [UInt16.toNat_zero]
    omega
  refine ⟨hlt, ?_⟩
  simp only [DatagramHeader.new, hpos, decide_true, Bool.true_and]

@[simp] theorem length_toBytes : h.toBytes.length = HEADER_LEN := by
  simp only [DatagramHeader.toBytes, List.length_append, List.length_cons, List.length_nil,
    BigEndian.length_toBE, HEADER_LEN]

@[simp] theorem length_encode : (h.encode p).length = HEADER_LEN + p.length := by
  rw [DatagramHeader.encode, List.length_append, length_toBytes]

@[simp] theorem payload_encode : payload (h.encode p) = p := by
  rw [payload, DatagramHeader.encode, ← length_toBytes h, List.drop_left]

/-- A field that stands at position `i` reads back as the number in it. -/
theorem beField_append (before after : List UInt8) (i w n : ℕ) (hi : before.length = i)
    (hn : n < 256 ^ w) : beField (before ++ BigEndian.toBE w n ++ after) i w = n := by
  subst hi
  rw [beField, List.append_assoc, List.drop_left]
  have htake := @List.take_left _ (BigEndian.toBE w n) after
  rw [BigEndian.length_toBE] at htake
  rw [htake, BigEndian.ofBE_toBE_of_lt w n hn]

theorem magic_encode : (h.encode p).getD 0 0 = MAGIC := rfl

theorem flags_encode : (h.encode p).getD 1 0 = h.flags := rfl

theorem streamId_encode : beField (h.encode p) 2 2 = h.streamId.toNat := by
  have hsplit : h.encode p = [MAGIC, h.flags] ++ BigEndian.toBE 2 h.streamId.toNat ++
      (BigEndian.toBE 4 h.frameSeq.toNat ++ BigEndian.toBE 2 h.fragIndex.toNat ++
        BigEndian.toBE 2 h.fragCount.toNat ++ p) := by
    simp only [DatagramHeader.encode, DatagramHeader.toBytes, List.append_assoc]
  rw [hsplit]
  exact beField_append _ _ 2 2 _ rfl h.streamId.toNat_lt

theorem frameSeq_encode : beField (h.encode p) 4 4 = h.frameSeq.toNat := by
  have hsplit : h.encode p = ([MAGIC, h.flags] ++ BigEndian.toBE 2 h.streamId.toNat) ++
      BigEndian.toBE 4 h.frameSeq.toNat ++ (BigEndian.toBE 2 h.fragIndex.toNat ++
        BigEndian.toBE 2 h.fragCount.toNat ++ p) := by
    simp only [DatagramHeader.encode, DatagramHeader.toBytes, List.append_assoc]
  rw [hsplit]
  exact beField_append _ _ 4 4 _ rfl h.frameSeq.toNat_lt

theorem fragIndex_encode : beField (h.encode p) 8 2 = h.fragIndex.toNat := by
  have hsplit : h.encode p = ([MAGIC, h.flags] ++ BigEndian.toBE 2 h.streamId.toNat ++
      BigEndian.toBE 4 h.frameSeq.toNat) ++ BigEndian.toBE 2 h.fragIndex.toNat ++
        (BigEndian.toBE 2 h.fragCount.toNat ++ p) := by
    simp only [DatagramHeader.encode, DatagramHeader.toBytes, List.append_assoc]
  rw [hsplit]
  exact beField_append _ _ 8 2 _ rfl h.fragIndex.toNat_lt

theorem fragCount_encode : beField (h.encode p) 10 2 = h.fragCount.toNat := by
  have hsplit : h.encode p = ([MAGIC, h.flags] ++ BigEndian.toBE 2 h.streamId.toNat ++
      BigEndian.toBE 4 h.frameSeq.toNat ++ BigEndian.toBE 2 h.fragIndex.toNat) ++
        BigEndian.toBE 2 h.fragCount.toNat ++ p := by
    simp only [DatagramHeader.encode, DatagramHeader.toBytes, List.append_assoc]
  rw [hsplit]
  exact beField_append _ _ 10 2 _ rfl h.fragCount.toNat_lt

/-- The two flag bits are read back one by one. -/
theorem last_of_flags : (h.flags &&& FLAG_LAST_FRAGMENT != 0) = h.lastFragment := by
  unfold DatagramHeader.flags
  cases h.keyframe <;> cases h.lastFragment <;> decide

theorem keyframe_of_flags : (h.flags &&& FLAG_KEYFRAME != 0) = h.keyframe := by
  unfold DatagramHeader.flags
  cases h.keyframe <;> cases h.lastFragment <;> decide

/-- Decoding an encoded valid header gives it back, if its stream is known. -/
theorem decode_encode (extra : List UInt16) (hv : h.Valid) (hp : p.length ≤ MAX_PAYLOAD) :
    decodeWithStreams (h.encode p) extra =
      if Accepts extra h.streamId then .ok { header := h, payloadLen := p.length }
      else .error .UnknownStream := by
  have hlen := length_encode h p
  have hshort : ¬ (h.encode p).length < HEADER_LEN := by omega
  have hlong : ¬ (h.encode p).length > MAX_DATAGRAM_LEN := by
    simp only [MAX_PAYLOAD, MAX_DATAGRAM_LEN, HEADER_LEN] at hp hlen ⊢
    omega
  have hindex := UInt16.lt_iff_toNat_lt.mp hv.index
  have hcount : ¬ h.fragCount < 1 := by
    rw [UInt16.lt_iff_toNat_lt, UInt16.toNat_one]
    omega
  have hrange : ¬ h.fragIndex ≥ h.fragCount := by
    rw [ge_iff_le, UInt16.le_iff_toNat_le]
    omega
  have hlast : ¬ (h.lastFragment != (h.fragIndex == h.fragCount - 1)) = true := by
    rw [hv.last]
    simp only [bne_self_eq_false, Bool.false_eq_true, not_false_eq_true]
  -- Every field reads back as the header's own, so each test is a fact about it.
  simp only [decodeWithStreams, magic_encode, flags_encode, streamId_encode, frameSeq_encode,
    fragIndex_encode, fragCount_encode, UInt16.ofNat_toNat, UInt32.ofNat_toNat, last_of_flags,
    keyframe_of_flags]
  rw [if_neg hshort, if_neg hlong, if_neg (fun hne => hne rfl), if_neg hcount, if_neg hrange,
    if_neg hlast, hlen, Nat.add_sub_cancel_left]
  by_cases hs : Accepts extra h.streamId
  · rw [if_pos hs, if_neg]
    rintro ⟨h0, h1, hextra⟩
    rcases hs with hs | hs | hs
    · exact h0 hs
    · exact h1 hs
    · exact hextra hs
  · rw [if_neg hs, if_pos]
    exact ⟨fun h0 => hs (Or.inl h0), fun h1 => hs (Or.inr (Or.inl h1)),
      fun hextra => hs (Or.inr (Or.inr hextra))⟩

end Header

section Fragment

theorem divCeil_eq (a b : ℕ) (hb : 0 < b) : divCeil a b = a ⌈/⌉ b := by
  rw [Nat.ceilDiv_eq_add_pred_div, divCeil]
  -- With `a = b * q + r`, rounding up is `q + 1` if `r` is positive and `q` if not.
  have hdiv := Nat.div_add_mod a b
  have hlt := Nat.mod_lt a hb
  split_ifs with hmod
  · refine (Nat.div_eq_of_lt_le ?_ ?_).symm
    · rw [Nat.add_mul, Nat.mul_comm (a / b) b]
      omega
    · rw [Nat.add_mul, Nat.add_mul, Nat.mul_comm (a / b) b]
      omega
  · refine (Nat.div_eq_of_lt_le ?_ ?_).symm
    · rw [Nat.mul_comm (a / b) b]
      omega
    · rw [Nat.add_mul, Nat.mul_comm (a / b) b]
      omega

/-- The number of datagrams of a body. -/
def fragCount (body : List UInt8) : ℕ :=
  max 1 (body.length ⌈/⌉ MAX_PAYLOAD)

/-- The payload of fragment `i`. -/
def chunk (body : List UInt8) (i : ℕ) : List UInt8 :=
  (body.drop (i * MAX_PAYLOAD)).take MAX_PAYLOAD

/-- The header of fragment `i`. -/
def header (streamId : UInt16) (frameSeq : UInt32) (keyframe : Bool) (body : List UInt8)
    (i : ℕ) : DatagramHeader :=
  DatagramHeader.new keyframe streamId frameSeq (UInt16.ofNat i) (UInt16.ofNat (fragCount body))

variable (streamId : UInt16) (frameSeq : UInt32) (keyframe : Bool) (body : List UInt8)

/-- `k` payloads are enough for a body. -/
theorem ceil_le_iff (k : ℕ) :
    body.length ⌈/⌉ MAX_PAYLOAD ≤ k ↔ body.length ≤ k * MAX_PAYLOAD := by
  rw [ceilDiv_le_iff_le_mul (show 0 < MAX_PAYLOAD by decide), Nat.mul_comm]

/-- A body of at most 65535 payloads has at most 65535 datagrams. -/
theorem fragCount_le (hlen : body.length ≤ 65535 * MAX_PAYLOAD) : fragCount body ≤ 65535 := by
  have hceil := (ceil_le_iff body 65535).mpr hlen
  rw [fragCount]
  omega

/-- The last datagram reaches the end of the body. -/
theorem length_le_fragCount : body.length ≤ fragCount body * MAX_PAYLOAD := by
  have hceil := (ceil_le_iff body _).mp (le_refl _)
  exact hceil.trans (Nat.mul_le_mul_right _ (le_max_right _ _))

/-- Before the last datagram the body has not ended. -/
theorem lt_length_of_lt_fragCount (i : ℕ) (hi : i + 1 < fragCount body) :
    (i + 1) * MAX_PAYLOAD < body.length := by
  have hceil : i + 1 < body.length ⌈/⌉ MAX_PAYLOAD := by
    rw [fragCount] at hi
    omega
  exact lt_of_not_ge (fun hle => absurd ((ceil_le_iff body (i + 1)).mpr hle) (by omega))

theorem length_chunk_le (i : ℕ) : (chunk body i).length ≤ MAX_PAYLOAD := by
  rw [chunk, List.length_take]
  exact min_le_left _ _

/-- The chunk iterator yields the payloads, and nothing past the end. -/
theorem getD_chunks (i : ℕ) : ((chunks MAX_PAYLOAD body)[i]?.getD []) = chunk body i := by
  by_cases hi : i < divCeil body.length MAX_PAYLOAD
  · simp only [chunks, List.getElem?_map, List.getElem?_range hi, Option.map_some, Option.getD_some,
      chunk]
  · have hend : body.length ≤ i * MAX_PAYLOAD := by
      rw [← ceil_le_iff, ← divCeil_eq _ _ (by decide)]
      omega
    rw [chunk, List.drop_eq_nil_of_le hend, List.getElem?_eq_none]
    · rfl
    · rw [chunks, List.length_map, List.length_range]
      omega

/-- The datagrams of a body, one for each position. -/
theorem fragment_eq : fragment streamId frameSeq keyframe body =
    (List.range (fragCount body)).map fun i =>
      (header streamId frameSeq keyframe body i).encode (chunk body i) := by
  simp only [fragment, getD_chunks, divCeil_eq _ _ (show 0 < MAX_PAYLOAD by decide),
    max_comm _ 1, header, fragCount]

theorem mem_fragment (dg : List UInt8) : dg ∈ fragment streamId frameSeq keyframe body ↔
    ∃ i, i < fragCount body ∧
      (header streamId frameSeq keyframe body i).encode (chunk body i) = dg := by
  rw [fragment_eq, List.mem_map]
  simp only [List.mem_range]

/-- The casts to 16 bits lose nothing of a body that is not too long. -/
theorem header_index (i : ℕ) (hlen : body.length ≤ 65535 * MAX_PAYLOAD)
    (hi : i < fragCount body) :
    (header streamId frameSeq keyframe body i).fragIndex.toNat = i := by
  have hle := fragCount_le body hlen
  exact UInt16.toNat_ofNat_of_lt (by simp only [UInt16.size]; omega)

theorem header_count (i : ℕ) (hlen : body.length ≤ 65535 * MAX_PAYLOAD) :
    (header streamId frameSeq keyframe body i).fragCount.toNat = fragCount body := by
  have hle := fragCount_le body hlen
  exact UInt16.toNat_ofNat_of_lt (by simp only [UInt16.size]; omega)

theorem header_valid (i : ℕ) (hlen : body.length ≤ 65535 * MAX_PAYLOAD)
    (hi : i < fragCount body) : (header streamId frameSeq keyframe body i).Valid := by
  refine new_valid keyframe streamId frameSeq _ _ (UInt16.lt_iff_toNat_lt.mpr ?_)
  have hidx := header_index streamId frameSeq keyframe body i hlen hi
  have hcnt := header_count streamId frameSeq keyframe body i hlen
  simp only [header, DatagramHeader.new] at hidx hcnt
  omega

/-- The last flag is on the last datagram and on no other. -/
theorem header_last (i : ℕ) (hlen : body.length ≤ 65535 * MAX_PAYLOAD) (hi : i < fragCount body) :
    (header streamId frameSeq keyframe body i).lastFragment = true ↔ i + 1 = fragCount body := by
  have hidx := header_index streamId frameSeq keyframe body i hlen hi
  have hcnt := header_count streamId frameSeq keyframe body i hlen
  have hle := fragCount_le body hlen
  rw [(header_valid streamId frameSeq keyframe body i hlen hi).last, beq_iff_eq,
    ← UInt16.toNat_inj, UInt16.toNat_sub_of_le, hidx, hcnt, UInt16.toNat_one]
  · omega
  · rw [UInt16.le_iff_toNat_le, hcnt, UInt16.toNat_one]
    omega

/-- Every datagram of a body decodes to its own header. -/
theorem decode_fragment (extra : List UInt16) (i : ℕ)
    (hlen : body.length ≤ 65535 * MAX_PAYLOAD) (hi : i < fragCount body) :
    decodeWithStreams ((header streamId frameSeq keyframe body i).encode (chunk body i)) extra =
      if Accepts extra streamId then
        .ok { header := header streamId frameSeq keyframe body i,
              payloadLen := (chunk body i).length }
      else .error .UnknownStream :=
  decode_encode _ _ extra (header_valid streamId frameSeq keyframe body i hlen hi)
    (length_chunk_le body i)

/-- A datagram of a body stands for the write of its payload. -/
theorem placement_fragment (extra : List UInt16) (i : ℕ)
    (hlen : body.length ≤ 65535 * MAX_PAYLOAD) (hstream : Accepts extra streamId)
    (hi : i < fragCount body) :
    placement extra ((header streamId frameSeq keyframe body i).encode (chunk body i)) =
      some (i * MAX_PAYLOAD, chunk body i) := by
  rw [placement, decode_fragment streamId frameSeq keyframe body extra i hlen hi, if_pos hstream]
  simp only [header_index streamId frameSeq keyframe body i hlen hi, payload_encode]

/-- The payload of a fragment is a piece of the body, at the fragment's place. -/
theorem piece_chunk (i : ℕ) (hi : i < fragCount body) :
    Pieces.Piece body (i * MAX_PAYLOAD) (chunk body i) := by
  have hle : i * MAX_PAYLOAD ≤ body.length := by
    rcases i with _ | j
    · rw [Nat.zero_mul]
      exact Nat.zero_le _
    · exact le_of_lt (lt_length_of_lt_fragCount body j hi)
  refine ⟨body.take (i * MAX_PAYLOAD), (body.drop (i * MAX_PAYLOAD)).drop MAX_PAYLOAD, ?_, ?_⟩
  · rw [chunk, List.append_assoc, List.take_append_drop, List.take_append_drop]
  · rw [List.length_take]
    exact min_eq_left hle

/-- Every position of the body is in the payload of a fragment. -/
theorem chunk_covers (k : ℕ) (hk : k < body.length) :
    ∃ i, i < fragCount body ∧ i * MAX_PAYLOAD ≤ k ∧
      k < i * MAX_PAYLOAD + (chunk body i).length := by
  have hend := length_le_fragCount body
  have hdiv := Nat.div_add_mod k MAX_PAYLOAD
  have hmod := Nat.mod_lt k (show 0 < MAX_PAYLOAD by decide)
  -- The fragment that holds position `k`.
  refine ⟨k / MAX_PAYLOAD, ?_, ?_, ?_⟩
  · exact Nat.div_lt_of_lt_mul (by rw [Nat.mul_comm]; omega)
  · exact Nat.div_mul_le_self k MAX_PAYLOAD
  · rw [chunk, List.length_take, List.length_drop, Nat.mul_comm]
    omega

/-- Received datagrams of one body, in any order and with any duplicates, put
    it together again. -/
theorem reassemble_fragment (extra : List UInt16) (buf : List UInt8) (received : List (List UInt8))
    (hlen : body.length ≤ 65535 * MAX_PAYLOAD) (hstream : Accepts extra streamId)
    (hbuf : buf.length ≤ body.length)
    (hall : ∀ dg, dg ∈ received ↔ dg ∈ fragment streamId frameSeq keyframe body) :
    reassemble extra buf received = body := by
  have hwrite := fun i => placement_fragment streamId frameSeq keyframe body extra i hlen hstream
  -- Every write puts bytes of the body where they belong, and together they reach all of it.
  refine Pieces.writeAll_eq 0 body buf _ hbuf (fun w hw => ?_) (fun k hk => ?_)
  · rcases List.mem_filterMap.mp hw with ⟨dg, hdg, hdec⟩
    rcases (mem_fragment streamId frameSeq keyframe body dg).mp ((hall dg).mp hdg) with
      ⟨i, hi, rfl⟩
    rw [hwrite i hi, Option.some.injEq] at hdec
    rw [← hdec]
    exact piece_chunk body i hi
  · rcases chunk_covers body k hk with ⟨i, hi, hlo, hhi⟩
    refine ⟨(i * MAX_PAYLOAD, chunk body i), List.mem_filterMap.mpr ⟨_, ?_, hwrite i hi⟩, hlo, hhi⟩
    exact (hall _).mpr ((mem_fragment streamId frameSeq keyframe body _).mpr ⟨i, hi, rfl⟩)

/-- The round trip. A body is cut into as many datagrams as it needs, at least
    one, and none is too long. If its stream is known, each decodes with the
    given fields, its position, the common count and the last flag on the last
    one alone; and any sequence of datagrams that is a permutation of them with
    duplicates puts the body together again, into any buffer that is not longer
    than it. -/
theorem fragment_round_trip (extra : List UInt16) (hlen : body.length ≤ 65535 * MAX_PAYLOAD) :
    (fragment streamId frameSeq keyframe body).length =
        max 1 (body.length ⌈/⌉ MAX_PAYLOAD) ∧
    (∀ dg ∈ fragment streamId frameSeq keyframe body, dg.length ≤ MAX_DATAGRAM_LEN) ∧
    (Accepts extra streamId →
      (∀ i dg, (fragment streamId frameSeq keyframe body)[i]? = some dg →
        ∃ d, decodeWithStreams dg extra = .ok d ∧ d.header.streamId = streamId ∧
          d.header.frameSeq = frameSeq ∧ d.header.keyframe = keyframe ∧
          d.header.fragIndex.toNat = i ∧
          d.header.fragCount.toNat = (fragment streamId frameSeq keyframe body).length ∧
          (d.header.lastFragment = true ↔
            i + 1 = (fragment streamId frameSeq keyframe body).length)) ∧
      ∀ (received : List (List UInt8)) (buf : List UInt8),
        (∀ dg, dg ∈ received ↔ dg ∈ fragment streamId frameSeq keyframe body) →
        buf.length ≤ body.length → reassemble extra buf received = body) := by
  have hcount : (fragment streamId frameSeq keyframe body).length = fragCount body := by
    rw [fragment_eq, List.length_map, List.length_range]
  refine ⟨hcount, fun dg hdg => ?_, fun hstream => ⟨fun i dg hget => ?_,
    fun received buf hall hbuf => reassemble_fragment streamId frameSeq keyframe body extra buf
      received hlen hstream hbuf hall⟩⟩
  · -- A chunk is at most the payload, and the header has its room beside it.
    rcases (mem_fragment streamId frameSeq keyframe body dg).mp hdg with ⟨i, hi, rfl⟩
    have hchunk := length_chunk_le body i
    rw [length_encode]
    simp only [MAX_PAYLOAD, MAX_DATAGRAM_LEN, HEADER_LEN] at hchunk ⊢
    omega
  · -- The `i`-th datagram is the one written from the `i`-th chunk.
    have hi : i < fragCount body := by
      rw [← hcount]
      exact (List.getElem?_eq_some_iff.mp hget).1
    rw [fragment_eq, List.getElem?_map, List.getElem?_range hi, Option.map_some,
      Option.some.injEq] at hget
    subst hget
    refine ⟨_, (decode_fragment streamId frameSeq keyframe body extra i hlen hi).trans
      (if_pos hstream), rfl, rfl, rfl, ?_, ?_, ?_⟩
    · -- The count fits its field, as the body is bounded.
      exact header_index streamId frameSeq keyframe body i hlen hi
    · rw [hcount]
      exact header_count streamId frameSeq keyframe body i hlen
    · rw [hcount]
      exact header_last streamId frameSeq keyframe body i hlen hi

/-- A negotiated stream, and a body one byte longer than a payload, received
    back to front with a duplicate. -/
theorem fragment_round_trip_two :
    reassemble [2] [] ((fragment 2 7 true (List.replicate 1339 5)).reverse ++
      fragment 2 7 true (List.replicate 1339 5)) = List.replicate 1339 5 := by
  refine ((fragment_round_trip 2 7 true (List.replicate 1339 5) [2] ?_).2.2 ?_).2 _ _ ?_ ?_
  · rw [List.length_replicate]
    decide
  · exact Or.inr (Or.inr List.mem_cons_self)
  · intro dg
    rw [List.mem_append, List.mem_reverse, or_self]
  · exact Nat.zero_le _

end Fragment

end Datagram

end LoomHost
