import LoomHost.Core.AnnexB
import LoomHost.Lib.BigEndian
import LoomHost.Lib.LengthPrefixed

/-!
# The Conversion to Annex-B

What the encoder hands over is a string of length-prefixed units, and `append`
accepts exactly those: it splits them in the one way there is, and writes a
start code in front of each.

A stream written so is split again at its start codes. No code begins inside a
NAL unit: within it the pattern does not occur, and across its end the last byte
would have to be zero.

## Main definitions

* `Avcc`: Length-prefixed units and their bodies.
* `annexb`: NAL units behind start codes.
* `Clean`: A NAL unit that no start code overlaps.

## Theorems

* `append_units`: A string of units is converted, unit by unit.
* `units_of_append`: Only a string of units is.
* `append_exact`: The two together.
* `startCodes_annexb`: The codes of a stream are those that were written.
* `nalTypes_eq`: The types are those of the units behind the codes.
* `split_append`: The units come back.
-/

namespace LoomHost

namespace AnnexB

open BigEndian LengthPrefixed

/-- A string of NAL units behind big-endian lengths of `n` bytes. -/
abbrev Avcc (n : ℕ) (src : List UInt8) (nals : List (List UInt8)) : Prop :=
  Units n ofBE src nals

/-- NAL units, each behind a start code. -/
def annexb (nals : List (List UInt8)) : List UInt8 := nals.flatMap fun nal => START_CODE ++ nal

/-- The type of a NAL unit. -/
def typeOf (nal : List UInt8) : UInt8 := nalType (nal.headD 0)

theorem annexb_cons (nal : List UInt8) (nals : List (List UInt8)) :
    annexb (nal :: nals) = START_CODE ++ nal ++ annexb nals :=
  List.flatMap_cons

section Slice

variable (src done body rest : List UInt8)

/-- The slice between two lengths. -/
theorem slice_append :
    slice (done ++ (body ++ rest)) done.length (done.length + body.length) = body := by
  rw [slice, List.drop_left, Nat.add_sub_cancel_left, List.take_left]

/-- A slice and what comes after it. -/
theorem drop_eq_slice_append (start stop : ℕ) (h : start ≤ stop) :
    src.drop start = slice src start stop ++ src.drop stop := by
  have hdrop : src.drop stop = (src.drop start).drop (stop - start) := by
    rw [List.drop_drop]
    congr 1
    omega
  rw [slice, hdrop, List.take_append_drop]

theorem length_slice (start stop : ℕ) (h : stop ≤ src.length) :
    (slice src start stop).length = stop - start := by
  rw [slice, List.length_take, List.length_drop]
  omega

end Slice

/-- The prefix is the number its bytes stand for, up to the width of `usize`. -/
theorem prefixLength_eq (bytes : List UInt8) (h : bytes.length ≤ 8) :
    prefixLength bytes = ofBE bytes := by
  induction bytes using List.reverseRecOn with
  | nil => rfl
  | append_singleton bytes b ih =>
      rw [List.length_append, List.length_singleton] at h
      have hb := b.toNat_lt
      -- Seven bytes and less leave the upper byte of `usize` free.
      have hfree : ofBE bytes < 256 ^ 7 :=
        (ofBE_lt bytes).trans_le (Nat.pow_le_pow_right (by omega) (by omega))
      have hshift : ofBE bytes <<< 8 % 2 ^ 64 = ofBE bytes <<< 8 := by
        rw [Nat.shiftLeft_eq]
        omega
      have hstep : prefixLength (bytes ++ [b]) =
          (prefixLength bytes <<< 8 % 2 ^ 64) ||| b.toNat := by
        simp only [prefixLength, List.foldl_append, List.foldl_cons, List.foldl_nil]
      rw [hstep, ih (by omega), hshift, ← Nat.shiftLeft_add_eq_or_of_lt hb, ofBE_concat,
        Nat.shiftLeft_eq]
      omega

section Convert

variable (n : ℕ) (hn : n ≤ 8)
include hn

/-- One turn of the loop takes one unit. -/
theorem appendFrom_unit (done field body rest : List UInt8) (keyframe : Bool) (out : List UInt8)
    (hfield : field.length = n) (hvalue : ofBE field = body.length) (hbody : 0 < body.length) :
    appendFrom (done ++ (field ++ (body ++ rest))) n done.length keyframe out =
      appendFrom ((done ++ field ++ body) ++ rest) n (done ++ field ++ body).length
        (keyframe || isIdr (typeOf body)) (out ++ START_CODE ++ body) := by
  have hlen : (done ++ (field ++ (body ++ rest))).length =
      done.length + (n + (body.length + rest.length)) := by
    simp only [List.length_append, hfield]
  have hlead : slice (done ++ (field ++ (body ++ rest))) done.length (done.length + n) =
      field := by
    rw [← hfield, slice_append]
  have hvalue' : prefixLength field = body.length := by
    rw [prefixLength_eq field (by omega), hvalue]
  have hsrc : done ++ (field ++ (body ++ rest)) = (done ++ field) ++ (body ++ rest) := by
    rw [List.append_assoc]
  have hstart : (done ++ field).length = done.length + n := by
    rw [List.length_append, hfield]
  have hslice : slice (done ++ (field ++ (body ++ rest))) (done.length + n)
      (done.length + n + body.length) = body := by
    rw [hsrc, ← hstart, slice_append]
  have hhead : (done ++ (field ++ (body ++ rest)))[done.length + n]? = body.head? := by
    rw [hsrc, ← hstart, List.getElem?_append_right (Nat.le_refl _), Nat.sub_self,
      List.getElem?_append_left hbody, List.head?_eq_getElem?]
  -- The field and the body are in bounds, and the body is not empty.
  rw [appendFrom, dif_pos (by omega), if_neg (by omega)]
  simp only [hlead, hvalue', hslice]
  rw [dif_neg (by omega), dif_neg (by omega)]
  have hheader : (done ++ (field ++ (body ++ rest)))[done.length + n] = body.headD 0 := by
    rw [List.getElem?_eq_getElem (by omega)] at hhead
    rw [List.headD_eq_head?_getD, ← hhead, Option.getD_some]
  rw [hheader]
  simp only [List.append_assoc, List.length_append, hfield, typeOf, Nat.add_assoc]

/-- A string of units is converted, unit by unit. -/
theorem append_units {src : List UInt8} {nals : List (List UInt8)} (h : Avcc n src nals) :
    ∀ (done : List UInt8) (keyframe : Bool) (out : List UInt8),
      appendFrom (done ++ src) n done.length keyframe out =
        (.ok (keyframe || nals.any fun nal => isIdr (typeOf nal)), out ++ annexb nals) := by
  induction h with
  | nil =>
      intro done keyframe out
      rw [List.append_nil, appendFrom, dif_neg (by omega), List.any_nil, Bool.or_false, annexb,
        List.flatMap_nil, List.append_nil]
  | cons field body rest bodies hfield hvalue hbody hrest ih =>
      intro done keyframe out
      rw [appendFrom_unit n hn done field body rest keyframe out hfield hvalue hbody, ih,
        List.any_cons, Bool.or_assoc, annexb_cons, List.append_assoc, List.append_assoc,
        List.append_assoc]

/-- Only a string of units is converted. -/
theorem units_of_append (src : List UInt8) (offset : ℕ) (keyframe : Bool) (out : List UInt8)
    (k : Bool) (h : (appendFrom src n offset keyframe out).1 = .ok k) :
    ∃ nals, Avcc n (src.drop offset) nals := by
  fun_induction appendFrom src n offset keyframe out with
  | case1 => cases h
  | case2 => cases h
  | case3 => cases h
  | case4 offset keyframe out hmore hfit length start stop hstop hlength hstart ih =>
      -- The three errors are above: here a unit is taken.
      rcases ih h with ⟨nals, hnals⟩
      have hfield : (slice src offset start).length = n := by
        rw [length_slice _ _ _ (by omega)]
        omega
      have hbody : (slice src start stop).length = length := by
        rw [length_slice _ _ _ (by omega)]
        omega
      refine ⟨slice src start stop :: nals, ?_⟩
      rw [drop_eq_slice_append src offset start (by omega),
        drop_eq_slice_append src start stop (by omega)]
      refine Units.cons _ _ _ _ hfield ?_ (by omega) hnals
      rw [hbody, ← prefixLength_eq _ (by omega)]
  | case5 offset keyframe out hmore =>
      refine ⟨[], ?_⟩
      rw [List.drop_eq_nil_of_le (by omega)]
      exact Units.nil

end Convert

/-- The conversion is exact: it accepts the strings of units, each of which has
    one splitting, and writes the start codes in front of their bodies. -/
theorem append_exact (src : List UInt8) (nalLengthSize : ℕ) (out : List UInt8)
    (hwidth : 1 ≤ nalLengthSize ∧ nalLengthSize ≤ 4) :
    ((∃ k, (append src nalLengthSize out).1 = .ok k) ↔ ∃ nals, Avcc nalLengthSize src nals) ∧
      (∀ nals, Avcc nalLengthSize src nals →
        (∀ nals', Avcc nalLengthSize src nals' → nals' = nals) ∧
        ∃ k, append src nalLengthSize out = (.ok k, out ++ annexb nals) ∧
          (k = true ↔ ∃ nal ∈ nals, typeOf nal = 19 ∨ typeOf nal = 20)) ∧
      ((∀ nals, ¬ Avcc nalLengthSize src nals) →
        ∃ e, (append src nalLengthSize out).1 = .error e) := by
  have hw : nalLengthSize ≤ 8 := by omega
  -- Units are consumed to the end of the buffer, each written behind a start code.
  have hok : ∀ nals, Avcc nalLengthSize src nals → append src nalLengthSize out =
      (.ok (nals.any fun nal => isIdr (typeOf nal)), out ++ annexb nals) := by
    intro nals hnals
    have hrun := append_units nalLengthSize hw hnals [] false out
    rwa [List.nil_append, List.length_nil, Bool.false_or] at hrun
  -- Conversely the scan only succeeds where it has read unit after unit.
  have hunits : ∀ k, (append src nalLengthSize out).1 = .ok k →
      ∃ nals, Avcc nalLengthSize src nals := by
    intro k hk
    have hread := units_of_append nalLengthSize hw src 0 false out k hk
    rwa [List.drop_zero] at hread
  refine ⟨⟨?_, ?_⟩, fun nals hnals => ⟨?_, ?_⟩, ?_⟩
  · rintro ⟨k, hk⟩
    exact hunits k hk
  · rintro ⟨nals, hnals⟩
    exact ⟨_, congrArg Prod.fst (hok nals hnals)⟩
  · -- A length prefix leaves no choice of where its unit ends.
    exact hnals.unique
  · refine ⟨_, hok nals hnals, ?_⟩
    rw [List.any_eq_true]
    simp only [isIdr, NAL_IDR_W_RADL, NAL_IDR_N_LP, Bool.or_eq_true, beq_iff_eq]
  · -- Without units the scan cannot succeed, and it always returns.
    intro hnone
    cases hres : (append src nalLengthSize out).1 with
    | error e => exact ⟨e, rfl⟩
    | ok k =>
        rcases hunits k hres with ⟨nals, hnals⟩
        exact absurd hnals (hnone nals)

/-- The two units of the source's own test, the second an IDR slice. -/
theorem append_exact_two :
    ∃ k, append [0, 2, 0x4E, 0x01, 0, 2, 0x26, 0x01] 2 [7] =
      (.ok k, [7] ++ annexb [[0x4E, 0x01], [0x26, 0x01]]) ∧
      (k = true ↔ ∃ nal ∈ [[0x4E, 0x01], [0x26, 0x01]], typeOf nal = 19 ∨ typeOf nal = 20) :=
  ((append_exact [0, 2, 0x4E, 0x01, 0, 2, 0x26, 0x01] 2 [7] ⟨by decide, by decide⟩).2.1 _
    (units_of_fields (toBE 2) [[0x4E, 0x01], [0x26, 0x01]] (by decide))).2

section Split

variable (stream : List UInt8) (i : ℕ) (h : i + 3 < stream.length)

/-- A 3-byte code is three bytes of the stream. -/
theorem sc3_iff : sc3 stream i h = true ↔
    stream[i]? = some 0 ∧ stream[i + 1]? = some 0 ∧ stream[i + 2]? = some 1 := by
  rw [sc3, Bool.and_eq_true, Bool.and_eq_true, List.getElem?_eq_getElem (by omega),
    List.getElem?_eq_getElem (by omega), List.getElem?_eq_getElem (by omega)]
  simp only [beq_iff_eq, Option.some.injEq, and_assoc]

/-- A 4-byte code is a zero and a 3-byte one. -/
theorem sc4_iff : sc4 stream i h = true ↔
    stream[i]? = some 0 ∧ stream[i + 1]? = some 0 ∧ stream[i + 2]? = some 0 ∧
      stream[i + 3]? = some 1 := by
  rw [sc4, Bool.and_eq_true, Bool.and_eq_true, Bool.and_eq_true,
    List.getElem?_eq_getElem (by omega), List.getElem?_eq_getElem (by omega),
    List.getElem?_eq_getElem (by omega), List.getElem?_eq_getElem h]
  simp only [beq_iff_eq, Option.some.injEq, and_assoc]

end Split

/-- A NAL unit that no start code overlaps: the encoder has broken up every
    pattern within it, and its last byte is not zero. -/
def Clean (nal : List UInt8) : Prop :=
  nal ≠ [] ∧ ¬ [0, 0, 1] <:+: nal ∧ nal.getLast? ≠ some 0

section Clean

variable {nal : List UInt8} (h : Clean nal)
include h

theorem Clean.length_pos : 0 < nal.length := List.length_pos_of_ne_nil h.1

theorem Clean.no_pattern (j : ℕ) (h0 : nal[j]? = some 0) (h1 : nal[j + 1]? = some 0) :
    nal[j + 2]? ≠ some 1 := by
  intro h2
  rcases List.getElem?_eq_some_iff.mp h2 with ⟨hlt, _⟩
  refine h.2.1 (List.infix_iff_getElem?.mpr ⟨j, ?_, fun k hk => ?_⟩)
  · simp only [List.length_cons, List.length_nil]
    omega
  · have hcases : k = 0 ∨ k = 1 ∨ k = 2 := by
      simp only [List.length_cons, List.length_nil] at hk
      omega
    rcases hcases with rfl | rfl | rfl
    · rw [Nat.zero_add, h0]; rfl
    · rw [Nat.add_comm, h1]; rfl
    · rw [Nat.add_comm, h2]; rfl

theorem Clean.last_ne_zero (j : ℕ) (hj : j + 1 = nal.length) : nal[j]? ≠ some 0 := by
  have hlast := h.2.2
  rwa [List.getLast?_eq_getElem?, ← hj, Nat.add_sub_cancel] at hlast

/-- No code begins inside a unit, wherever it stands and whatever follows it. -/
theorem Clean.no_code (stream : List UInt8) (start : ℕ)
    (hat : ∀ j, j < nal.length → stream[start + j]? = nal[j]?) (j : ℕ) (hj : j < nal.length)
    (hin : start + j + 3 < stream.length) :
    ¬ (sc3 stream (start + j) hin || sc4 stream (start + j) hin) = true := by
  rw [Bool.or_eq_true]
  intro hcode
  rcases hcode with hcode | hcode
  · rcases (sc3_iff stream _ hin).mp hcode with ⟨h0, h1, h2⟩
    -- Either the three bytes are all in the unit, or the last of it is one of the zeros.
    by_cases hthree : j + 2 < nal.length
    · exact h.no_pattern j (by rw [← hat j hj]; exact h0)
        (by rw [← hat (j + 1) (by omega)]; exact h1) (by rw [← hat (j + 2) hthree]; exact h2)
    · by_cases htwo : j + 1 < nal.length
      · exact h.last_ne_zero (j + 1) (by omega) (by rw [← hat (j + 1) htwo]; exact h1)
      · exact h.last_ne_zero j (by omega) (by rw [← hat j hj]; exact h0)
  · rcases (sc4_iff stream _ hin).mp hcode with ⟨h0, h1, h2, h3⟩
    by_cases hfour : j + 3 < nal.length
    · exact h.no_pattern (j + 1) (by rw [← hat (j + 1) (by omega)]; exact h1)
        (by rw [← hat (j + 2) (by omega)]; exact h2) (by rw [← hat (j + 3) hfour]; exact h3)
    · by_cases hthree : j + 2 < nal.length
      · exact h.last_ne_zero (j + 2) (by omega) (by rw [← hat (j + 2) hthree]; exact h2)
      · by_cases htwo : j + 1 < nal.length
        · exact h.last_ne_zero (j + 1) (by omega) (by rw [← hat (j + 1) htwo]; exact h1)
        · exact h.last_ne_zero j (by omega) (by rw [← hat j hj]; exact h0)

end Clean

/-- The scan passes over a stretch without codes. -/
theorem startCodesFrom_skip (stream : List UInt8) (start : ℕ) :
    ∀ m, (∀ j, j < m → ∀ hin : start + j + 3 < stream.length,
        ¬ (sc3 stream (start + j) hin || sc4 stream (start + j) hin) = true) →
      startCodesFrom stream start = startCodesFrom stream (start + m) := by
  intro m
  induction m with
  | zero => exact fun _ => rfl
  | succ m ih =>
      intro hno
      rw [ih fun j hj => hno j (by omega), startCodesFrom]
      by_cases hin : start + m + 3 < stream.length
      · rw [dif_pos hin, if_neg (hno m (by omega) hin), Nat.add_assoc]
      · -- Too near to the end for a code, here and one byte further.
        rw [dif_neg hin, startCodesFrom, dif_neg (by omega)]

/-- The scan stops at a code that was written. -/
theorem startCodesFrom_code (done nal tail : List UInt8) (hnal : 0 < nal.length) :
    startCodesFrom (done ++ (START_CODE ++ nal ++ tail)) done.length =
      (done.length, done.length + 4) ::
        startCodesFrom (done ++ (START_CODE ++ nal ++ tail)) (done.length + 4) := by
  have hin : done.length + 3 < (done ++ (START_CODE ++ nal ++ tail)).length := by
    simp only [START_CODE, List.length_append, List.length_cons, List.length_nil]
    omega
  have hbyte : ∀ j, j < 4 →
      (done ++ (START_CODE ++ nal ++ tail))[done.length + j]? = START_CODE[j]? := by
    intro j hj
    have hfour : START_CODE.length = 4 := rfl
    rw [List.getElem?_append_right (by omega), Nat.add_sub_cancel_left, List.append_assoc,
      List.getElem?_append_left (by omega)]
  have hcode : sc4 (done ++ (START_CODE ++ nal ++ tail)) done.length hin = true :=
    (sc4_iff _ _ hin).mpr
      ⟨hbyte 0 (by omega), hbyte 1 (by omega), hbyte 2 (by omega), hbyte 3 (by omega)⟩
  rw [startCodesFrom, dif_pos hin, hcode, Bool.or_true, if_pos rfl, nalStart, hcode, if_pos rfl]

/-- Where the codes of a written stream stand. -/
def codesAt (start : ℕ) : List (List UInt8) → List (ℕ × ℕ)
  | [] => []
  | nal :: nals => (start, start + 4) :: codesAt (start + 4 + nal.length) nals

/-- The codes of a stream are those that were written. -/
theorem startCodes_annexb (nals : List (List UInt8)) :
    ∀ done, (∀ nal ∈ nals, Clean nal) →
      startCodesFrom (done ++ annexb nals) done.length = codesAt done.length nals := by
  induction nals with
  | nil =>
      intro done _
      rw [annexb, List.flatMap_nil, List.append_nil, startCodesFrom, dif_neg (by omega),
        codesAt]
  | cons nal nals ih =>
      intro done hclean
      have hnal := hclean nal List.mem_cons_self
      have hlen : (done ++ START_CODE ++ nal).length = done.length + 4 + nal.length := by
        simp only [START_CODE, List.length_append, List.length_cons, List.length_nil]
      have hstream : done ++ (START_CODE ++ nal ++ annexb nals) =
          (done ++ START_CODE ++ nal) ++ annexb nals := by
        simp only [List.append_assoc]
      have hat : ∀ j, j < nal.length →
          (done ++ (START_CODE ++ nal ++ annexb nals))[done.length + 4 + j]? = nal[j]? := by
        intro j hj
        have hhead : (done ++ START_CODE).length = done.length + 4 := by
          rw [List.length_append]; rfl
        rw [hstream, List.getElem?_append_left (by omega), List.getElem?_append_right (by omega),
          hhead, Nat.add_sub_cancel_left]
      -- The scan finds the code in front of the unit, and none inside it.
      rw [annexb_cons, startCodesFrom_code _ _ _ hnal.length_pos,
        startCodesFrom_skip _ _ nal.length fun j hj hin =>
          hnal.no_code _ _ hat j hj hin, codesAt]
      have hrest := ih (done ++ START_CODE ++ nal) fun nal' hmem =>
        hclean nal' (List.mem_cons_of_mem _ hmem)
      rw [hlen] at hrest
      rw [hstream, hrest]

/-- Cutting at the codes that were written gives the units. -/
theorem cut_annexb (nals : List (List UInt8)) :
    ∀ done : List UInt8, cut (done ++ annexb nals) (codesAt done.length nals) = nals := by
  induction nals with
  | nil => exact fun _ => rfl
  | cons nal nals ih =>
      intro done
      have hhead : (done ++ START_CODE).length = done.length + 4 := by
        rw [List.length_append]; rfl
      have hlen : (done ++ START_CODE ++ nal).length = done.length + 4 + nal.length := by
        rw [List.length_append, hhead]
      have hstream : done ++ annexb (nal :: nals) =
          (done ++ START_CODE) ++ (nal ++ annexb nals) := by
        rw [annexb_cons]
        simp only [List.append_assoc]
      have hrest := ih (done ++ START_CODE ++ nal)
      rw [hlen, List.append_assoc, ← hstream] at hrest
      -- The last unit ends with the stream, every other before the next code.
      cases nals with
      | nil =>
          rw [codesAt, codesAt, cut, hstream, ← hhead, List.drop_left, annexb, List.flatMap_nil,
            List.append_nil]
      | cons nal' nals =>
          rw [codesAt] at hrest
          rw [codesAt, codesAt, cut, hrest, hstream, ← hhead, slice_append]

/-- The scan for types reads the first byte behind each start code. -/
theorem nalTypesFrom_eq (stream : List UInt8) (i : ℕ) (types : List UInt8) :
    nalTypesFrom stream i types = types ++
      (startCodesFrom stream i).filterMap fun code => stream[code.2]?.map nalType := by
  fun_induction nalTypesFrom stream i types with
  | case1 i types h hcode hpos hnal ih =>
      rw [ih, startCodesFrom.eq_def stream i, dif_pos h, if_pos hcode, List.filterMap_cons,
        List.getElem?_eq_getElem hnal, Option.map_some, List.append_assoc, List.singleton_append]
  | case2 i types h hcode hpos hnal ih =>
      rw [ih, startCodesFrom.eq_def stream i, dif_pos h, if_pos hcode, List.filterMap_cons,
        List.getElem?_eq_none (by omega), Option.map_none]
  | case3 i types h hcode ih =>
      rw [ih, startCodesFrom.eq_def stream i, dif_pos h, if_neg hcode]
  | case4 i types h =>
      rw [startCodesFrom, dif_neg h, List.filterMap_nil, List.append_nil]

theorem nalTypes_eq (stream : List UInt8) :
    nalTypes stream =
      (startCodes stream).filterMap fun code => stream[code.2]?.map nalType := by
  rw [nalTypes, nalTypesFrom_eq, List.nil_append, startCodes]

/-- Behind each written code stands the first byte of its unit. -/
theorem types_annexb (nals : List (List UInt8)) :
    ∀ done : List UInt8, (∀ nal ∈ nals, nal ≠ []) →
      ((codesAt done.length nals).filterMap fun code =>
        (done ++ annexb nals)[code.2]?.map nalType) = nals.map typeOf := by
  induction nals with
  | nil => exact fun _ _ => rfl
  | cons nal nals ih =>
      intro done hne
      have hhead : (done ++ START_CODE).length = done.length + 4 := by
        rw [List.length_append]; rfl
      have hlen : (done ++ START_CODE ++ nal).length = done.length + 4 + nal.length := by
        rw [List.length_append, hhead]
      have hpos := List.length_pos_of_ne_nil (hne nal List.mem_cons_self)
      have hstream : done ++ annexb (nal :: nals) = (done ++ START_CODE ++ nal) ++ annexb nals := by
        rw [annexb_cons]
        simp only [List.append_assoc]
      -- Behind the start code, four bytes long, stands the first byte of the unit.
      have hbyte : (done ++ annexb (nal :: nals))[done.length + 4]? = some (nal.headD 0) := by
        rw [hstream, ← hhead, List.getElem?_append_left (by omega),
          List.getElem?_append_right (Nat.le_refl _), Nat.sub_self, ← List.head?_eq_getElem?,
          List.head?_eq_some_head (hne nal List.mem_cons_self), List.headD_eq_head?_getD,
          List.head?_eq_some_head (hne nal List.mem_cons_self), Option.getD_some]
      -- What is written by then is part of the stream before the other units.
      have hrest := ih (done ++ START_CODE ++ nal) fun nal' hmem =>
        hne nal' (List.mem_cons_of_mem _ hmem)
      rw [hlen, ← hstream] at hrest
      rw [codesAt, List.filterMap_cons, hbyte, Option.map_some, hrest, List.map_cons, typeOf]

/-- A stream written from NAL units is split back into them, and the scan reads
    their types. -/
theorem split_append (nals : List (List UInt8)) (hclean : ∀ nal ∈ nals, Clean nal)
    (nalLengthSize : ℕ) (hwidth : 1 ≤ nalLengthSize ∧ nalLengthSize ≤ 4) (src : List UInt8)
    (hsrc : Avcc nalLengthSize src nals) :
    split (append src nalLengthSize []).2 = nals ∧
      nalTypes (append src nalLengthSize []).2 = nals.map typeOf := by
  have hrun := append_units nalLengthSize (by omega) hsrc [] false []
  have hout : (append src nalLengthSize []).2 = annexb nals := by
    rw [List.nil_append, List.length_nil, List.nil_append] at hrun
    rw [append, hrun]
  have hcodes := startCodes_annexb nals [] hclean
  have hcut := cut_annexb nals []
  have htypes := types_annexb nals [] fun nal hmem => (hclean nal hmem).1
  rw [List.nil_append, List.length_nil] at hcodes hcut htypes
  rw [hout]
  refine ⟨?_, ?_⟩
  · rw [split, startCodes, hcodes, hcut]
  · rw [nalTypes_eq, startCodes, hcodes, htypes]

/-- Two units of which the first has zeros in it, by 2-byte lengths. -/
theorem split_append_two :
    split (append [0, 4, 0x4E, 0, 0, 3, 0, 2, 0x26, 0x01] 2 []).2 =
        [[0x4E, 0, 0, 3], [0x26, 0x01]] ∧
      nalTypes (append [0, 4, 0x4E, 0, 0, 3, 0, 2, 0x26, 0x01] 2 []).2 = [39, 19] :=
  split_append [[0x4E, 0, 0, 3], [0x26, 0x01]]
    (by
      intro nal hmem
      have hcases : nal = [0x4E, 0, 0, 3] ∨ nal = [0x26, 0x01] := by
        simpa only [List.mem_cons, List.not_mem_nil, or_false] using hmem
      unfold Clean
      rcases hcases with rfl | rfl <;> decide)
    2 ⟨by decide, by decide⟩ _
    (units_of_fields (toBE 2) [[0x4E, 0, 0, 3], [0x26, 0x01]] (by decide))

end AnnexB

end LoomHost
