import LoomHost.Core.Client
import LoomHost.Theory.Replies

/-!
# What a Client Says and a Session Answers

The messages of a client are in normal form, so the host decodes them as they are,
and a session that has not begun answers each in one way only: a greeting with
WELCOME and CONFIG, the acknowledgement with START, and a request for an IDR with
one request to the media thread.

## Main definitions

* `greeted`, `acknowledged`, `sessionAfter`: The session after the first messages.
* `answer`: What the session makes of each.

## Theorems

* `decodeFrame_self`: A message in normal form comes back as it is.
* `decode_hello`, `decode_ack`, `decode_idr`: The messages of the client.
* `onFrame_hello`, `onFrame_ack`, `onFrame_idr`: The answers to them.
-/

namespace LoomHost

namespace Client

open WordCast Cbor Control Session Conn Reassembly Datagram

section Messages

variable {limit : ℕ} {fromReader : List UInt8 → Option Rfc8949.Item}

/-- A message whose keys are known and in order, and whose values are in normal form,
    comes back as it is. -/
theorem decodeFrame_self (hreader : ReadsItems limit fromReader) {msgType : UInt64}
    {body : List (Value × Value)} {allowed : List ℤ} (hm : Sendable limit (msgType, body))
    (hkeys : knownKeys msgType = some allowed) (hknown : ∀ p ∈ body, isKnown allowed p = true)
    (hvalues : ∀ p ∈ body, p.2.sorted = p.2) (horder : byKey body = body) :
    decodeFrame fromReader (encodeFrame msgType body) = .ok (.Message msgType body) := by
  have hpos : (msgType.toNat : ℤ) ≥ 0 := Int.natCast_nonneg _
  have hsame : (body.map fun p => (p.1.sorted, p.2.sorted)) = body := by
    refine (List.map_congr_left (fun p hp => ?_)).trans (List.map_id body)
    rw [sorted_of_known allowed p (hknown p hp), hvalues p hp]
    rfl
  rw [decodeFrame_encodeFrame limit fromReader hreader _ hm, sorted_envelope, horder, hsame]
  simp only [decodeEnvelope, Value.asArray, Value.asInt, Value.asMap, if_pos hpos,
    uint64_ofInt_toNat, hkeys]
  rw [List.filter_eq_self.mpr hknown]

/-- Entries in the order of their encoded keys stay where they are. -/
theorem byKey_self {m : List (Value × Value)}
    (h : (m.map fun p => p.1.encodeInto).Pairwise fun a b => (compare a b).isLE = true) :
    byKey m = m := by
  unfold byKey
  exact List.Pairwise.insertionSort_eq (List.pairwise_map.mp h)

theorem sortedAll_ints (l : List ℤ) : sortedAll (l.map .Int) = l.map .Int := by
  induction l with
  | nil => rfl
  | cons i l ih =>
      rw [List.map_cons, sortedAll, ih]
      rfl

theorem decode_hello (hreader : ReadsItems limit fromReader) {g : Greeting}
    (hm : Sendable limit (HELLO, helloBody g)) :
    decodeFrame fromReader (encodeFrame HELLO (helloBody g)) =
      .ok (.Message HELLO (helloBody g)) := by
  refine decodeFrame_self hreader hm rfl ?_ ?_ ?_
  · rw [List.forall_iff_forall_mem.symm]
    exact ⟨rfl, rfl, rfl, rfl, rfl, rfl⟩
  · simp only [helloBody, List.mem_cons, List.not_mem_nil, or_false, forall_eq_or_imp, Value.sorted,
      sortedAll_ints, sortedAll, forall_eq, and_self]
  · refine byKey_self ?_
    have hkeys : (helloBody g).map (fun p => p.1.encodeInto) =
        [[0], [1], [2], [3], [4], [5]] := rfl
    rw [hkeys]
    decide

theorem length_encodeHead_le (major : UInt8) (arg : UInt64) :
    (encodeHead major arg).length ≤ 9 := by
  unfold encodeHead
  split_ifs <;> simp only [List.length_cons, List.length_nil, zero_add, Nat.one_le_ofNat,
    Nat.reduceAdd, Nat.reduceLeDiff, UInt64.toNat_toUInt16, Nat.reducePow, BigEndian.length_toBE,
    UInt64.toNat_toUInt32, Std.le_refl]

theorem length_encodeInt_le (i : ℤ) : (encodeInt i).length ≤ 9 := by
  unfold encodeInt
  split_ifs
  · exact length_encodeHead_le 0 _
  · exact length_encodeHead_le 1 _

/-- A message of a registered type whose body is one integer, under the key 0. -/
theorem decode_one (hreader : ReadsItems limit fromReader) (hlimit : 5 ≤ limit)
    {msgType : UInt64} {allowed : List ℤ} (hkeys : knownKeys msgType = some allowed)
    (hzero : 0 ∈ allowed) {i : ℤ} (hi : -2 ^ 64 ≤ i ∧ i < 2 ^ 64) :
    decodeFrame fromReader (encodeFrame msgType [(.Int 0, .Int i)]) =
      .ok (.Message msgType [(.Int 0, .Int i)]) := by
  have hencoded : (envelope msgType [(.Int 0, .Int i)]).toCanonical =
      encodeHead 4 2 ++ (encodeInt msgType.toNat ++
        (encodeHead 5 1 ++ (encodeInt 0 ++ encodeInt i))) := by
    simp only [envelope, Value.toCanonical, Value.encodeInto, encodeElems, encodeItems, encodeMap,
      List.insertionSort_cons, List.insertionSort_nil, List.orderedInsert_nil, List.flatMap_cons,
      List.flatMap_nil, List.append_nil]
    rfl
  have hlength : (envelope msgType [(.Int 0, .Int i)]).toCanonical.length ≤ 45 := by
    have harray := length_encodeHead_le 4 2
    have htype := length_encodeInt_le msgType.toNat
    have hmap := length_encodeHead_le 5 1
    have hkey := length_encodeInt_le 0
    have hvalue := length_encodeInt_le i
    rw [hencoded]
    simp only [List.length_append]
    omega
  have hranged : (envelope msgType [(.Int 0, .Int i)]).Ranged := by
    have htype := msgType.toNat_lt
    simp only [envelope, Value.Ranged, RangedPairs, RangedAll, and_true]
    omega
  refine decodeFrame_self hreader ⟨encodable_of_length _ hranged ?_, ?_, ?_⟩ hkeys
    (List.forall_mem_singleton.mpr (List.elem_iff.mpr hzero))
    (List.forall_mem_singleton.mpr rfl) rfl
  · exact lt_of_le_of_lt hlength (by omega)
  · exact hlength.trans (by decide)
  · simp only [envelope, Value.depth, depthAll, depthPairs, max_self, zero_add, zero_le,
      sup_of_le_left, sup_of_le_right, Nat.reduceAdd]
    omega

theorem decode_ack (hreader : ReadsItems limit fromReader) (hlimit : 5 ≤ limit) :
    decodeFrame fromReader (encodeFrame CONFIG_ACK ackBody) =
      .ok (.Message CONFIG_ACK ackBody) :=
  decode_one hreader hlimit rfl (by decide) (by omega)

theorem decode_idr (hreader : ReadsItems limit fromReader) (hlimit : 5 ≤ limit)
    (lastGood : UInt32) :
    decodeFrame fromReader (encodeFrame IDR_REQUEST (idrBody lastGood)) =
      .ok (.Message IDR_REQUEST (idrBody lastGood)) := by
  have hlt := lastGood.toNat_lt
  exact decode_one hreader hlimit rfl (by decide) (by omega)

end Messages

section Session

variable (s : HostSession) (g : Greeting)

/-- The session once it has taken the greeting. -/
def greeted : HostSession :=
  { s with
    state := .WaitConfigAck
    clientMaxWidth := 2560
    clientMaxHeight := 1440
    multiActive := UInt64.ofInt g.features &&& FEATURE_MULTI_DISPLAY != 0 &&
      !s.extraStreams.isEmpty
    generation := 1 }

/-- The session once it has taken the acknowledgement. -/
def acknowledged : HostSession := { greeted s g with state := .Streaming }

/-- What the session makes of the first `n` messages. -/
def sessionAfter : ℕ → HostSession
  | 0 => s
  | 1 => greeted s g
  | _ => acknowledged s g

/-- What the session answers to the `n`-th message. -/
def answer : ℕ → List Output
  | 0 => [.Send WELCOME (greeted s g).welcomeBody, .Send CONFIG (greeted s g).configBody]
  | 1 => [.Send START [], .StartMedia (greeted s g).multiActive]
  | _ => [.RequestIdr 0]

theorem onFrame_hello (hs : s.state = .WaitHello) (hcodec : 1 ∈ g.codecs) :
    s.onFrame (.Message HELLO (helloBody g)) = (greeted s g, answer s g 0) := by
  have hversion : intKey (helloBody g) 0 = some (PROTOCOL_VERSION.toNat : ℤ) := rfl
  have hoffers : offersCodec (helloBody g) CODEC_HEVC = true := by
    have hcodec : CODEC_HEVC.toNat = 1 := rfl
    simp only [offersCodec, helloBody, hcodec, Nat.cast_one, List.any_cons, List.any_map,
      List.any_nil, Bool.or_self, Bool.or_false, Bool.false_or, List.any_eq_true,
      Function.comp_apply, decide_eq_true_eq, exists_eq_right]
    assumption
  have hstate : (s.onFrame (.Message HELLO (helloBody g))) = s.onHello HELLO (helloBody g) := by
    simp only [HostSession.onFrame, hs]
    rfl
  rw [hstate]
  unfold HostSession.onHello
  rw [if_neg (not_not_intro rfl), if_neg (not_not_intro hversion), if_neg (not_not_intro hoffers)]
  rfl

theorem onFrame_ack : (greeted s g).onFrame (.Message CONFIG_ACK ackBody) =
    (acknowledged s g, answer s g 1) := rfl

theorem onFrame_idr (lastGood : UInt32) :
    (acknowledged s g).onFrame (.Message IDR_REQUEST (idrBody lastGood)) =
      (acknowledged s g, [.RequestIdr 0]) := rfl

end Session

end Client

end LoomHost
