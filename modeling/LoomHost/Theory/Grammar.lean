import LoomHost.Core.Control

/-!
# The Frame Grammar

What `decodeFrame` accepts of a body behind its own length. The grammar is one
CBOR item that fills the body, an array of a message type and a map; the
decoder takes an item off the front of the body and never asks whether
anything is left, so it accepts the grammar's frames and those with more bytes
behind the item. Where there are no such bytes the two agree.

`front` is the CBOR reader with the bytes it leaves unread; `decodeFrame` is
given the item alone.

## Main definitions

* `InGrammar`: A body is one item, and the item an envelope.
* `Trails`: An envelope with bytes behind it.

## Theorems

* `decodeEnvelope_ok_iff`: The envelopes.
* `decodeFrame_framed`: A body behind its own length.
* `decodeFrame_ok_iff`: What is accepted.
* `decodeFrame_grammar_iff`: When that is the grammar.
* `trailing_byte_accepted`: When it is not.
-/

namespace LoomHost

namespace Control

open Cbor

/-- An array of a nonnegative integer and a map. -/
def IsEnvelope (value : Value) : Prop :=
  ∃ (i : ℤ) (map : List (Value × Value)), 0 ≤ i ∧ value = .Array [.Int i, .Map map]

section Frame

/-- An envelope is decoded by its message type. -/
theorem decodeEnvelope_array (i : ℤ) (map : List (Value × Value)) (hi : 0 ≤ i) :
    decodeEnvelope (.Array [.Int i, .Map map]) = .ok
      (match knownKeys (UInt64.ofInt i) with
      | some allowed => .Message (UInt64.ofInt i) (map.filter (isKnown allowed))
      | none => .Ignored) := by
  simp only [decodeEnvelope, Value.asArray, Value.asInt, Value.asMap, ge_iff_le, if_pos hi]
  cases knownKeys (UInt64.ofInt i) <;> rfl

/-- The envelopes are what is decoded. -/
theorem decodeEnvelope_ok_iff (value : Value) :
    (∃ decoded, decodeEnvelope value = .ok decoded) ↔ IsEnvelope value := by
  constructor
  · rintro ⟨decoded, h⟩
    unfold decodeEnvelope at h
    -- Each reading that succeeds fixes the shape of one part.
    split at h
    · rename_i msgType body harray
      split at h
      · rename_i i hint
        split_ifs at h with hi
        split at h
        · rename_i map hmap
          cases value with
          | Array items =>
              rw [Value.asArray, Option.some.injEq] at harray
              cases msgType with
              | Int j =>
                  cases body with
                  | Map m =>
                      rw [Value.asInt, Option.some.injEq] at hint
                      exact ⟨j, m, hint ▸ hi, by rw [harray]⟩
                  | _ => simp only [Value.asMap, reduceCtorEq] at hmap
              | _ => simp only [Value.asInt, reduceCtorEq] at hint
          | _ => simp only [Value.asArray, reduceCtorEq] at harray
        · simp only [reduceCtorEq] at h
      · simp only [reduceCtorEq] at h
    · simp only [reduceCtorEq] at h
  · rintro ⟨i, map, hi, rfl⟩
    exact ⟨_, decodeEnvelope_array i map hi⟩

/-- A body behind its own length. -/
theorem decodeFrame_framed (fromReader : List UInt8 → Option Rfc8949.Item) (body : List UInt8)
    (hlen : body.length < 2 ^ 32) :
    decodeFrame fromReader (BigEndian.toBE 4 body.length ++ body) =
      if body.length > MAX_FRAME_BODY then .error .ProtocolViolation
      else decode fromReader body >>= decodeEnvelope := by
  have htake := @List.take_left _ (BigEndian.toBE 4 body.length) body
  have hdrop := @List.drop_left _ (BigEndian.toBE 4 body.length) body
  rw [BigEndian.length_toBE] at htake hdrop
  rw [decodeFrame, List.length_append, BigEndian.length_toBE, if_neg (by omega), htake, hdrop,
    BigEndian.ofBE_toBE_of_lt 4 _ (by omega)]
  dsimp only
  rw [if_neg (lt_irrefl (4 + body.length)), List.take_length]

end Frame

section Grammar

variable (front : List UInt8 → Option (Rfc8949.Item × List UInt8)) (body : List UInt8)

/-- The grammar: within the limit, one item that fills the body, and the item an
    envelope. -/
def InGrammar : Prop :=
  body.length ≤ MAX_FRAME_BODY ∧
    ∃ item, front body = some (item, []) ∧ IsEnvelope (fromCiborium item)

/-- Within the limit, an envelope with bytes behind it. -/
def Trails : Prop :=
  body.length ≤ MAX_FRAME_BODY ∧
    ∃ item rest, front body = some (item, rest) ∧ rest ≠ [] ∧ IsEnvelope (fromCiborium item)

/-- The reader that does not say what it leaves unread. -/
def fromFront (bytes : List UInt8) : Option Rfc8949.Item :=
  (front bytes).map Prod.fst

/-- The decoder accepts an envelope at the front of a body within the limit. -/
theorem decodeFrame_ok_iff (hlen : body.length < 2 ^ 32) :
    (∃ decoded, decodeFrame (fromFront front) (BigEndian.toBE 4 body.length ++ body) =
        .ok decoded) ↔
      InGrammar front body ∨ Trails front body := by
  rw [decodeFrame_framed _ body hlen]
  by_cases hlimit : body.length > MAX_FRAME_BODY
  · rw [if_pos hlimit]
    refine ⟨fun ⟨decoded, h⟩ => by simp only [reduceCtorEq] at h, ?_⟩
    rintro (⟨hle, -⟩ | ⟨hle, -⟩) <;> omega
  rw [if_neg hlimit]
  have hle : body.length ≤ MAX_FRAME_BODY := not_lt.mp hlimit
  rcases hfront : front body with _ | ⟨item, rest⟩
  · -- The body does not start with an item.
    have hdecode : decode (fromFront front) body = .error .ProtocolViolation := by
      rw [decode, fromFront, hfront]
      rfl
    rw [hdecode]
    refine ⟨fun ⟨decoded, h⟩ => ?_, ?_⟩
    · exact absurd h (by simp only [bind, Except.bind, reduceCtorEq, not_false_eq_true])
    · rintro (⟨-, item, h, -⟩ | ⟨-, item, rest, h, -⟩) <;> simp only [hfront, reduceCtorEq] at h
  · have hdecode : decode (fromFront front) body = .ok (fromCiborium item) := by
      rw [decode, fromFront, hfront]
      rfl
    rw [hdecode]
    refine (decodeEnvelope_ok_iff (fromCiborium item)).trans ⟨fun henv => ?_, ?_⟩
    · by_cases hrest : rest = []
      · exact Or.inl ⟨hle, item, hrest ▸ hfront, henv⟩
      · exact Or.inr ⟨hle, item, rest, hfront, hrest, henv⟩
    · rintro (⟨-, item', h, henv⟩ | ⟨-, item', rest', h, -, henv⟩) <;>
      · rw [hfront, Option.some.injEq, Prod.mk.injEq] at h
        exact h.1 ▸ henv

/-- The bytes behind an item tell the two apart. -/
theorem not_trails_of_inGrammar (h : InGrammar front body) : ¬ Trails front body := by
  rintro ⟨-, item, rest, hfront, hrest, -⟩
  rcases h with ⟨-, item', hfront', -⟩
  rw [hfront', Option.some.injEq, Prod.mk.injEq] at hfront
  exact hrest hfront.2.symm

/-- The decoder accepts a body behind its own length exactly when it is in the
    grammar, and rejects every other as a violation, if and only if the body is
    not an envelope with bytes behind it. -/
theorem decodeFrame_grammar_iff (hlen : body.length < 2 ^ 32) :
    (((∃ decoded, decodeFrame (fromFront front) (BigEndian.toBE 4 body.length ++ body) =
          .ok decoded) ↔ InGrammar front body) ∧
      (¬ InGrammar front body →
        decodeFrame (fromFront front) (BigEndian.toBE 4 body.length ++ body) =
          .error .ProtocolViolation)) ↔
      ¬ Trails front body := by
  rw [decodeFrame_ok_iff front body hlen]
  constructor
  · -- A body with bytes left over is accepted, and is not in the grammar.
    exact fun ⟨haccepts, _⟩ htrails =>
      not_trails_of_inGrammar front body (haccepts.mp (Or.inr htrails)) htrails
  · intro htrails
    refine ⟨⟨fun h => h.resolve_right htrails, Or.inl⟩, fun hgrammar => ?_⟩
    have hrejects := (not_congr (decodeFrame_ok_iff front body hlen)).mpr
      (not_or.mpr ⟨hgrammar, htrails⟩)
    -- There is one error only.
    cases hdecode : decodeFrame (fromFront front) (BigEndian.toBE 4 body.length ++ body) with
    | ok decoded => exact absurd ⟨decoded, hdecode⟩ hrejects
    | error e => cases e; rfl

end Grammar

/-- START is in the grammar. -/
theorem decodeFrame_grammar_iff_start :
    ((∃ decoded, decodeFrame (fromFront Rfc8949.decode)
          (BigEndian.toBE 4 3 ++ [0x82, 0x05, 0xa0]) = .ok decoded) ↔
        InGrammar Rfc8949.decode [0x82, 0x05, 0xa0]) ∧
      (¬ InGrammar Rfc8949.decode [0x82, 0x05, 0xa0] →
        decodeFrame (fromFront Rfc8949.decode) (BigEndian.toBE 4 3 ++ [0x82, 0x05, 0xa0]) =
          .error .ProtocolViolation) := by
  refine (decodeFrame_grammar_iff Rfc8949.decode [0x82, 0x05, 0xa0] (by decide)).mpr ?_
  rintro ⟨-, item, rest, hfront, hrest, -⟩
  have hread : Rfc8949.decode [0x82, 0x05, 0xa0] = some (.array [.int 5, .map []], []) := rfl
  rw [hread, Option.some.injEq, Prod.mk.injEq] at hfront
  exact hrest hfront.2.symm

/-- A byte behind START goes unnoticed. -/
theorem trailing_byte_accepted :
    (∃ decoded, decodeFrame (fromFront Rfc8949.decode)
      (BigEndian.toBE 4 4 ++ [0x82, 0x05, 0xa0, 0x00]) = .ok decoded) ∧
      ¬ InGrammar Rfc8949.decode [0x82, 0x05, 0xa0, 0x00] := by
  refine ⟨⟨.Message START [], rfl⟩, ?_⟩
  rintro ⟨-, item, hfront, -⟩
  have hread : Rfc8949.decode [0x82, 0x05, 0xa0, 0x00] = some (.array [.int 5, .map []], [0x00]) :=
    rfl
  rw [hread, Option.some.injEq, Prod.mk.injEq] at hfront
  exact absurd hfront.2 (by decide)

end Control

end LoomHost
