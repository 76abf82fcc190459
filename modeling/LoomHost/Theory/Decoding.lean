import LoomHost.Theory.Datagram

/-!
# The Datagrams That Decode

The decoder accepts the encodings of valid headers and nothing else. What it
takes apart are five big-endian fields and two flag bits, and putting them
together again gives the datagram back but for the six reserved bits, which it
does not look at. The flag of the last fragment is checked against the position
that `DatagramHeader.new` derives it from, so every header that is accepted is
one that `DatagramHeader.new` builds.

## Main definitions

* `unreserved`: A datagram with the reserved bits cleared.
* `Encodes`: A datagram is the encoding of a header and a payload.
* `readHeader`: The header whose fields stand in a datagram.

## Theorems

* `decode_unreserved`: The decoder does not look at the reserved bits.
* `toBE_beField`: A field written back.
* `unreserved_readHeader`: What is read, encoded again.
* `Encodes.decodes`, `encodes_of_decode`: The two directions.
* `decode_iff_encodes`: Decoding inverts encoding on the valid datagrams.
-/

namespace LoomHost

namespace Datagram

/-- A datagram with the six reserved bits of its `flags` cleared. -/
def unreserved (b : List UInt8) : List UInt8 :=
  b.modify 1 fun flags => flags &&& (FLAG_KEYFRAME ||| FLAG_LAST_FRAGMENT)

/-- A datagram is the encoding of a header and a payload, up to the reserved
    bits: the header is one that is built for a fragment of a known stream, and
    the payload fits a datagram. -/
structure Encodes (extra : List UInt16) (b : List UInt8) (h : DatagramHeader) (p : List UInt8) :
    Prop where
  built : ∃ keyframe streamId frameSeq fragIndex fragCount, fragIndex < fragCount ∧
    h = DatagramHeader.new keyframe streamId frameSeq fragIndex fragCount
  stream : Accepts extra h.streamId
  size : p.length ≤ MAX_PAYLOAD
  bytes : unreserved b = unreserved (h.encode p)

section Reserved

variable (b : List UInt8)

theorem length_unreserved : (unreserved b).length = b.length :=
  List.length_modify _ b 1

/-- The fields after the flags have no reserved bits. -/
theorem drop_unreserved (i : ℕ) (hi : 2 ≤ i) : (unreserved b).drop i = b.drop i :=
  List.drop_modify_of_lt _ 1 i b hi

theorem beField_unreserved (i w : ℕ) (hi : 2 ≤ i) :
    beField (unreserved b) i w = beField b i w := by
  rw [beField, beField, drop_unreserved b i hi]

theorem payload_unreserved : payload (unreserved b) = payload b :=
  drop_unreserved b HEADER_LEN (by decide)

theorem magic_unreserved : (unreserved b).getD 0 0 = b.getD 0 0 := by
  rw [List.getD_eq_getElem?_getD, List.getD_eq_getElem?_getD, unreserved,
    List.getElem?_modify_ne _ _ (by decide)]

theorem flags_unreserved : (unreserved b).getD 1 0 =
    b.getD 1 0 &&& (FLAG_KEYFRAME ||| FLAG_LAST_FRAGMENT) := by
  rw [List.getD_eq_getElem?_getD, List.getD_eq_getElem?_getD, unreserved,
    List.getElem?_modify_eq]
  cases b[1]? <;> rfl

/-- The decoder does not look at the reserved bits. -/
theorem decode_unreserved (extra : List UInt16) :
    decodeWithStreams (unreserved b) extra = decodeWithStreams b extra := by
  -- The two flags are inside the mask.
  have hkeyframe (flags : UInt8) :
      flags &&& (FLAG_KEYFRAME ||| FLAG_LAST_FRAGMENT) &&& FLAG_KEYFRAME =
        flags &&& FLAG_KEYFRAME := by
    rw [UInt8.and_assoc]
    rfl
  have hlast (flags : UInt8) :
      flags &&& (FLAG_KEYFRAME ||| FLAG_LAST_FRAGMENT) &&& FLAG_LAST_FRAGMENT =
        flags &&& FLAG_LAST_FRAGMENT := by
    rw [UInt8.and_assoc]
    rfl
  simp only [decodeWithStreams, length_unreserved, magic_unreserved, flags_unreserved, hkeyframe,
    hlast, beField_unreserved b 2 2 le_rfl, beField_unreserved b 4 4 (by decide),
    beField_unreserved b 8 2 (by decide), beField_unreserved b 10 2 (by decide)]

end Reserved

section Decoded

variable (b : List UInt8)

/-- The header whose fields stand in the datagram. -/
def readHeader : DatagramHeader :=
  { keyframe := b.getD 1 0 &&& FLAG_KEYFRAME != 0
    lastFragment := b.getD 1 0 &&& FLAG_LAST_FRAGMENT != 0
    streamId := UInt16.ofNat (beField b 2 2)
    frameSeq := UInt32.ofNat (beField b 4 4)
    fragIndex := UInt16.ofNat (beField b 8 2)
    fragCount := UInt16.ofNat (beField b 10 2) }

/-- What the decoder checks, and what it returns. -/
theorem decode_ok (extra : List UInt16) (d : DecodedDatagram)
    (h : decodeWithStreams b extra = .ok d) :
    HEADER_LEN ≤ b.length ∧ b.length ≤ MAX_DATAGRAM_LEN ∧ b.getD 0 0 = MAGIC ∧
      (readHeader b).Valid ∧ Accepts extra (readHeader b).streamId ∧
      d = { header := readHeader b, payloadLen := b.length - HEADER_LEN } := by
  unfold decodeWithStreams at h
  dsimp only at h
  -- Every branch but the last drops the datagram.
  split_ifs at h with hshort hlong hmagic hcount hrange hlast hstream
  rw [Except.ok.injEq] at h
  refine ⟨not_lt.mp hshort, not_lt.mp hlong, not_not.mp hmagic, ⟨?_, ?_⟩, ?_, h.symm⟩
  · exact UInt16.not_le.mp hrange
  · exact bne_eq_false_iff_eq.mp (Bool.eq_false_iff.mpr hlast)
  · -- The check for a known stream is the negation of three.
    by_contra hno
    exact hstream ⟨fun h0 => hno (Or.inl h0), fun h1 => hno (Or.inr (Or.inl h1)),
      fun hextra => hno (Or.inr (Or.inr hextra))⟩

/-- A valid header is one that is built. -/
theorem DatagramHeader.Valid.built {h : DatagramHeader} (hv : h.Valid) :
    h = DatagramHeader.new h.keyframe h.streamId h.frameSeq h.fragIndex h.fragCount := by
  have hnew :=
    (new_valid h.keyframe h.streamId h.frameSeq h.fragIndex h.fragCount hv.index).last
  have hlast := hv.last
  rcases h with ⟨keyframe, lastFragment, streamId, frameSeq, fragIndex, fragCount⟩
  simp only [DatagramHeader.new] at hnew hlast ⊢
  rw [hnew, hlast]

/-- A field written back. -/
theorem toBE_beField (i w : ℕ) (h : i + w ≤ b.length) :
    BigEndian.toBE w (beField b i w) ++ b.drop (i + w) = b.drop i := by
  have hlen : ((b.drop i).take w).length = w := by
    rw [List.length_take, List.length_drop]
    omega
  have hfield := BigEndian.toBE_ofBE ((b.drop i).take w)
  rw [hlen] at hfield
  rw [beField, hfield, ← List.drop_drop, List.take_append_drop]

/-- A field fits its width. -/
theorem beField_lt (i w : ℕ) : beField b i w < 256 ^ w := by
  refine lt_of_lt_of_le (BigEndian.ofBE_lt _) (Nat.pow_le_pow_right (by decide) ?_)
  rw [List.length_take]
  exact min_le_left _ _

/-- The five fields, written back one after the other. -/
theorem fields_readHeader (hlen : HEADER_LEN ≤ b.length) :
    (readHeader b).toBytes ++ payload b = [MAGIC, (readHeader b).flags] ++ b.drop 2 := by
  have hstream : (readHeader b).streamId.toNat = beField b 2 2 :=
    UInt16.toNat_ofNat_of_lt (beField_lt b 2 2)
  have hseq : (readHeader b).frameSeq.toNat = beField b 4 4 :=
    UInt32.toNat_ofNat_of_lt (beField_lt b 4 4)
  have hindex : (readHeader b).fragIndex.toNat = beField b 8 2 :=
    UInt16.toNat_ofNat_of_lt (beField_lt b 8 2)
  have hcount : (readHeader b).fragCount.toNat = beField b 10 2 :=
    UInt16.toNat_ofNat_of_lt (beField_lt b 10 2)
  -- A field and what is behind it make up what is behind the field before.
  simp only [HEADER_LEN] at hlen
  rw [DatagramHeader.toBytes, hstream, hseq, hindex, hcount, payload, HEADER_LEN]
  simp only [List.append_assoc]
  rw [toBE_beField b 10 2 (by omega), toBE_beField b 8 2 (by omega),
    toBE_beField b 4 4 (by omega), toBE_beField b 2 2 (by omega)]

/-- A flag is a bit that is set or not. -/
theorem and_flag (x f : UInt8) (i : ℕ) (hf : f.toNat = 2 ^ i) :
    x &&& f = if (x &&& f != 0) = true then f else 0 := by
  -- Only the bit of the flag is left of `x`.
  have hbit : x &&& f = if x.toNat.testBit i then f else 0 := by
    refine UInt8.toNat_inj.mp (Nat.eq_of_testBit_eq (fun j => ?_))
    rw [UInt8.toNat_and, Nat.testBit_and, hf, Nat.testBit_two_pow]
    by_cases hj : i = j
    · subst hj
      cases hset : x.toNat.testBit i with
      | false =>
        simp only [decide_true, Bool.and_true, Bool.false_eq_true, ↓reduceIte, UInt8.toNat_zero,
          Nat.zero_testBit]
      | true => simp only [decide_true, Bool.and_self, ↓reduceIte, hf, Nat.testBit_two_pow_self]
    · cases hset : x.toNat.testBit i with
      | false =>
        simp only [hj, decide_false, Bool.and_false, Bool.false_eq_true, ↓reduceIte,
          UInt8.toNat_zero, Nat.zero_testBit]
      | true =>
        simp only [hj, decide_false, Bool.and_false, ↓reduceIte, hf, ne_eq, not_false_eq_true,
          Nat.testBit_two_pow_of_ne]
  by_cases hset : x &&& f = 0
  · rw [hset]
    rfl
  · rw [if_pos (bne_iff_ne.mpr hset), hbit, if_pos]
    by_contra hclear
    exact hset (hbit.trans (if_neg hclear))

/-- The flags of a header, bit by bit. -/
theorem flags_eq (h : DatagramHeader) : h.flags &&& (FLAG_KEYFRAME ||| FLAG_LAST_FRAGMENT) =
    (if h.keyframe then FLAG_KEYFRAME else 0) |||
      if h.lastFragment then FLAG_LAST_FRAGMENT else 0 := by
  unfold DatagramHeader.flags
  cases h.keyframe <;> cases h.lastFragment <;> rfl

/-- The two flag bits, written back. -/
theorem flags_readHeader : (readHeader b).flags &&& (FLAG_KEYFRAME ||| FLAG_LAST_FRAGMENT) =
    b.getD 1 0 &&& (FLAG_KEYFRAME ||| FLAG_LAST_FRAGMENT) := by
  have hdistrib (x y z : UInt8) : x &&& (y ||| z) = x &&& y ||| x &&& z := by
    rw [← UInt8.toNat_inj]
    simp only [UInt8.toNat_and, UInt8.toNat_or, Nat.and_or_distrib_left]
  rw [hdistrib (b.getD 1 0), and_flag (b.getD 1 0) FLAG_KEYFRAME 0 rfl,
    and_flag (b.getD 1 0) FLAG_LAST_FRAGMENT 1 rfl, flags_eq]
  rfl

/-- What is read, encoded again. -/
theorem unreserved_readHeader (hlen : HEADER_LEN ≤ b.length) (hmagic : b.getD 0 0 = MAGIC) :
    unreserved b = unreserved ((readHeader b).encode (payload b)) := by
  have hflags := flags_readHeader b
  rw [DatagramHeader.encode, fields_readHeader b hlen]
  generalize readHeader b = h at hflags
  -- Only the second byte is touched; the rest is the same on both sides.
  rcases b with _ | ⟨magic, _ | ⟨flags, rest⟩⟩
  · exact absurd hlen (by decide)
  · exact absurd hlen (by simp only [HEADER_LEN, List.length_cons, List.length_nil, zero_add,
      Nat.not_ofNat_le_one, not_false_eq_true])
  · change magic = MAGIC at hmagic
    change _ = flags &&& _ at hflags
    simp only [unreserved, List.modify_succ_cons, List.modify_zero_cons, List.cons_append,
      List.nil_append, List.drop_succ_cons, List.drop_zero, hmagic, hflags]

end Decoded

section Exact

variable {b : List UInt8} {extra : List UInt16} {h h' : DatagramHeader} {p p' : List UInt8}

/-- The encoding of a header and a payload decodes to them. -/
theorem Encodes.decodes (he : Encodes extra b h p) :
    decodeWithStreams b extra = .ok { header := h, payloadLen := p.length } := by
  rcases he.built with ⟨keyframe, streamId, frameSeq, fragIndex, fragCount, hlt, heq⟩
  have hvalid : h.Valid := heq ▸ new_valid keyframe streamId frameSeq fragIndex fragCount hlt
  rw [← decode_unreserved, he.bytes, decode_unreserved, decode_encode h p extra hvalid he.size,
    if_pos he.stream]

/-- What decodes is the encoding of what it decodes to. -/
theorem encodes_of_decode {d : DecodedDatagram} (hd : decodeWithStreams b extra = .ok d) :
    Encodes extra b d.header (payload b) ∧ d.payloadLen = (payload b).length := by
  rcases decode_ok b extra d hd with ⟨hshort, hlong, hmagic, hvalid, hstream, rfl⟩
  have hlen : (payload b).length = b.length - HEADER_LEN := by
    rw [payload, List.length_drop]
  refine ⟨⟨⟨_, _, _, _, _, hvalid.index, hvalid.built⟩, hstream, ?_, ?_⟩, hlen.symm⟩
  · rw [hlen]
    exact Nat.sub_le_sub_right hlong HEADER_LEN
  · exact unreserved_readHeader b hshort hmagic

/-- A datagram is the encoding of one header and one payload. -/
theorem Encodes.unique (he : Encodes extra b h p) (he' : Encodes extra b h' p') :
    h = h' ∧ p = p' := by
  constructor
  · -- Both headers are the one that is decoded.
    have heq := he.decodes.symm.trans he'.decodes
    rw [Except.ok.injEq, DecodedDatagram.mk.injEq] at heq
    exact heq.1
  · -- Both payloads are what is behind the header.
    have hpayload {h : DatagramHeader} {p : List UInt8} (he : Encodes extra b h p) :
        p = payload b := by
      rw [← payload_unreserved b, he.bytes, payload_unreserved, payload_encode]
    rw [hpayload he, hpayload he']

/-- Decoding inverts encoding on exactly the valid datagrams: a datagram decodes
    if and only if it is the encoding of a header built for a fragment of a
    known stream and a payload that fits, up to the reserved bits; these are
    unique, and the header and the length of the payload are what is returned. -/
theorem decode_iff_encodes (b : List UInt8) (extra : List UInt16) :
    (∀ d, decodeWithStreams b extra = .ok d ↔
      ∃ h p, Encodes extra b h p ∧ d.header = h ∧ d.payloadLen = p.length) ∧
    ∀ h p h' p', Encodes extra b h p → Encodes extra b h' p' → h = h' ∧ p = p' := by
  refine ⟨fun d => ⟨fun hd => ?_, fun hd => ?_⟩, fun h p h' p' he he' => he.unique he'⟩
  · rcases encodes_of_decode hd with ⟨he, hlen⟩
    exact ⟨d.header, payload b, he, rfl, hlen⟩
  · rcases hd with ⟨h, p, he, rfl, hlen⟩
    rw [he.decodes, ← hlen]

end Exact

end Datagram

end LoomHost
