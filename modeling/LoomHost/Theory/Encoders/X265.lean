import LoomHost.Core.Encoders
import LoomHost.Lib.Delay
import LoomHost.Theory.System.Restored

/-!
# What the Encoder Wrappers Keep

The libraries take pictures and give access units, and may hold pictures back. What
is assumed of them is what their documentation says of the settings that are used:
without B-frames and reordering the access units come in the order of the pictures,
one for each, and a picture that was asked for as an IDR is coded as one. Nothing is
assumed about how long a picture is held.

A wrapper asks for an IDR with its first picture and with those that are forced. So
the k-th access unit it returns is a coding of the k-th picture it was given, and is
a keyframe exactly if that picture was the first or was forced.

## Main definitions

* `Call`, `callStep`: A call of an encoder.
* `X265.Codes`: What is assumed of libx265.

## Theorems

* `units_of_delays`: The access units of a run, for any wrapper.
* `hevc_units`: Those of the software encoder.
-/

namespace LoomHost

namespace Encoders

open Media Delay

section Calls

/-- A call of an encoder. -/
structure Call (P : Type*) where
  planes : P
  pts : Int64
  forceIdr : Bool

variable {E P ι : Type*} (backend : Backend E P)

/-- One call, with the access unit it returns, if any. -/
def callStep (e : E) (c : Call P) : Option (E × List AccessUnit) :=
  (backend.encodeI420 e c.planes c.pts c.forceIdr).map fun r => (r.2, r.1.toList)

variable {backend}

theorem callStep_eq {e e' : E} {c : Call P} {aus : List AccessUnit} :
    callStep backend e c = some (e', aus) ↔
      ∃ au, backend.encodeI420 e c.planes c.pts c.forceIdr = some (au, e') ∧
        aus = au.toList := by
  unfold callStep
  rw [Option.map_eq_some_iff]
  constructor
  · rintro ⟨⟨au, e₁⟩, hencode, hr⟩
    cases hr
    exact ⟨au, hencode, rfl⟩
  · rintro ⟨au, hencode, rfl⟩
    exact ⟨_, hencode, rfl⟩

/-- What an encoder is given, when the first picture and those that are forced are
    asked for as IDRs. -/
theorem getElem?_taken (fresh : E → Bool) (code : Call P → Bool → ι)
    (hstale : ∀ e c e' aus, callStep backend e c = some (e', aus) → fresh e' = false)
    (calls : List (Call P)) : ∀ {e e' : E} {aus : List AccessUnit},
      Machine.exec (callStep backend) e calls = some (e', aus) → ∀ k : ℕ,
        (taken (callStep backend) (fun e c => code c (c.forceIdr || fresh e)) e calls)[k]? =
          calls[k]?.map fun c => code c (c.forceIdr || (fresh e && k == 0)) := by
  induction calls with
  | nil =>
      intro e e' aus _ k
      simp only [taken, List.length_nil, not_lt_zero, not_false_eq_true, getElem?_neg,
        Option.map_none]
  | cons c calls ih =>
      intro e e' aus hrun k
      rcases Machine.exec_cons.mp hrun with ⟨e₁, first, rest, hstep, hrest, -⟩
      rw [taken, hstep]
      cases k with
      | zero =>
          simp only [List.length_cons, lt_add_iff_pos_left, add_pos_iff, zero_lt_one, or_true,
            getElem?_pos, List.getElem_cons_zero, BEq.rfl, Bool.and_true, Option.map_some]
      | succ k =>
          -- From the second picture on the encoder is not fresh.
          rw [List.getElem?_cons_succ, List.getElem?_cons_succ]
          dsimp only
          rw [ih hrest k, hstale e c e₁ first hstep, Bool.false_and, beq_false_of_ne k.succ_ne_zero,
            Bool.and_false]

/-- What a fresh encoder is given, call by call: the first picture and those that are
    forced are asked for as IDRs. -/
def given (code : Call P → Bool → ι) (calls : List (Call P)) : List ι :=
  calls.mapIdx fun k c => code c (c.forceIdr || k == 0)

variable {fresh : E → Bool} {code : Call P → Bool → ι} {held : E → List ι}
  {makes : ι → AccessUnit → Prop}

/-- The access units of a run are made of the first pictures, and the other pictures
    are held. -/
theorem units_of_delays
    (h : Delays (callStep backend) (fun e c => code c (c.forceIdr || fresh e)) held makes)
    (hstale : ∀ e c e' aus, callStep backend e c = some (e', aus) → fresh e' = false)
    {e e' : E} (hfresh : fresh e = true) (hempty : held e = []) {calls : List (Call P)}
    {aus : List AccessUnit}
    (hrun : Machine.exec (callStep backend) e calls = some (e', aus)) :
    (∀ (k : ℕ) (au : AccessUnit), aus[k]? = some au →
      ∃ c, calls[k]? = some c ∧ makes (code c (c.forceIdr || k == 0)) au) ∧
    held e' = (given code calls).drop aus.length ∧
    aus.length + (held e').length = calls.length := by
  have htaken : taken (callStep backend) (fun e c => code c (c.forceIdr || fresh e)) e calls =
      given code calls := by
    refine List.ext_getElem? fun k => ?_
    rw [getElem?_taken fresh code hstale calls hrun k, given, List.getElem?_mapIdx, hfresh]
    rfl
  rcases h.outputs hempty hrun with ⟨hmade, hheld, hlength⟩
  rw [htaken] at hmade hheld hlength
  have hsame : (given code calls).length = calls.length := List.length_mapIdx
  refine ⟨fun k au hk => ?_, hheld, hlength.trans hsame⟩
  rcases List.getElem?_eq_some_iff.mp hk with ⟨hlt, hau⟩
  have hcall : k < calls.length := by omega
  refine ⟨calls[k], List.getElem?_eq_getElem hcall, ?_⟩
  -- The k-th access unit is made of the k-th item given.
  have hmakes := hmade.get (i := k) (by rw [List.length_take]; omega) hlt
  rw [List.get_eq_getElem, List.get_eq_getElem, List.getElem_take, hau] at hmakes
  simpa only [given, List.getElem_mapIdx] using hmakes

end Calls

section X265

variable {X P : Type*} (lib : X265 X P)

/-- The picture a call is coded from. -/
def x265Picture (c : Call P) (idr : Bool) : X265Picture P :=
  { planes := c.planes, pts := c.pts, sliceType := if idr then .IDR else .P }

/-- The access unit of some NAL units. -/
structure UnitOf (nals : List X265Nal) (au : AccessUnit) : Prop where
  data : au.data = nals.flatMap X265Nal.payload
  keyframe : au.keyframe = true ↔ ∃ n ∈ nals, n.type_ = NAL_IDR_W_RADL ∨ n.type_ = NAL_IDR_N_LP

/-- What is assumed of libx265, with the pictures an encoder holds and the codings
    of a picture: an encoder that returns nothing has kept the picture, one that
    returns NAL units has coded the picture it has held longest, and a picture has
    IDR units exactly if it was to be an IDR. -/
structure X265.Codes (held : X → List (X265Picture P))
    (coding : X265Picture P → List X265Nal → Prop) : Prop where
  opened : ∀ param x, lib.encoderOpen param = some x → held x = []
  kept : ∀ x pic ret nals x', lib.encoderEncode x pic = (ret, nals, x') → ¬ ret < 0 →
    ret = 0 ∨ nals.length = 0 → held x' = held x ++ [pic]
  returned : ∀ x pic ret nals x', lib.encoderEncode x pic = (ret, nals, x') → ¬ ret < 0 →
    ¬ (ret = 0 ∨ nals.length = 0) → ∃ p, held x ++ [pic] = p :: held x' ∧ coding p nals
  idr : ∀ p nals, coding p nals →
    (p.sliceType = .IDR ↔ ∃ n ∈ nals, n.type_ = NAL_IDR_W_RADL ∨ n.type_ = NAL_IDR_N_LP)

variable {lib} {held : X → List (X265Picture P)} {coding : X265Picture P → List X265Nal → Prop}
  {openSource : Session.MediaParams → Option (Source P)}

/-- What a call gives the library, and what it makes of the answer. -/
theorem hevc_step {e e' : HevcEncoder X} {planes : P} {pts : Int64} {forceIdr : Bool}
    {au : Option AccessUnit}
    (h : (hevcBackend lib openSource).encodeI420 e planes pts forceIdr = some (au, e')) :
    ∃ ret nals, e'.started = true ∧ ¬ ret < 0 ∧
      lib.encoderEncode e.enc (x265Picture ⟨planes, pts, forceIdr⟩ (forceIdr || !e.started)) =
        (ret, nals, e'.enc) ∧
      ((ret = 0 ∨ nals.length = 0) ∧ au = none ∨
        ¬ (ret = 0 ∨ nals.length = 0) ∧ ∃ u, au = some u ∧ UnitOf nals u) := by
  unfold hevcBackend at h
  dsimp only at h
  split at h
  · rename_i au₁ e₁ hencode
    rw [Option.some.injEq, Prod.mk.injEq] at h
    rcases h with ⟨rfl, rfl⟩
    rcases hanswer : lib.encoderEncode e.enc
      (x265Picture ⟨planes, pts, forceIdr⟩ (forceIdr || !e.started)) with ⟨ret, nals, x'⟩
    -- The slice type asked for is that of the picture handed over.
    have hgiven : lib.encoderEncode e.enc
        ⟨planes, pts, if forceIdr || !e.started then .IDR else .P⟩ = (ret, nals, x') := hanswer
    unfold HevcEncoder.encodeI420 at hencode
    simp only [hgiven] at hencode
    -- The library fails, or it holds the picture back, or it hands units out.
    split_ifs at hencode with hneg hnone
    · cases hencode
    · cases hencode
      exact ⟨ret, nals, rfl, hneg, rfl, Or.inl ⟨hnone, rfl⟩⟩
    · cases hencode
      refine ⟨ret, nals, rfl, hneg, rfl, Or.inr ⟨hnone, _, rfl, rfl, ?_⟩⟩
      simp only [List.any_eq_true, Bool.or_eq_true, beq_iff_eq]
  · cases h

/-- An encoder that has been opened is to be given its first picture. -/
theorem hevc_started {cfg : EncoderConfig} {e : HevcEncoder X}
    (hopen : (hevcBackend lib openSource).openEncoder cfg = some e) :
    e.started = false ∧ lib.encoderOpen (x265Param cfg) = some e.enc := by
  unfold hevcBackend at hopen
  dsimp only at hopen
  unfold HevcEncoder.new at hopen
  split_ifs at hopen
  · cases hopen
  · cases hopen
  · split at hopen
    · cases hopen
    · rename_i enc henc
      cases hopen
      exact ⟨rfl, henc⟩

theorem hevc_opened (h : lib.Codes held coding) {cfg : EncoderConfig} {e : HevcEncoder X}
    (hopen : (hevcBackend lib openSource).openEncoder cfg = some e) :
    e.started = false ∧ held e.enc = [] := by
  rcases hevc_started hopen with ⟨hstarted, henc⟩
  exact ⟨hstarted, h.opened _ _ henc⟩

/-- The wrapper holds back what the library does. -/
theorem hevc_delays (h : lib.Codes held coding) :
    Delays (callStep (hevcBackend lib openSource))
      (fun e c => x265Picture c (c.forceIdr || !e.started)) (fun e => held e.enc)
      (fun p au => ∃ nals, coding p nals ∧ UnitOf nals au) := by
  intro e c e' aus hstep
  rcases callStep_eq.mp hstep with ⟨au, hencode, rfl⟩
  rcases hevc_step hencode with ⟨ret, nals, -, hneg, hanswer, ⟨hnone, rfl⟩ | ⟨hsome, u, rfl, hunit⟩⟩
  · refine ⟨[], ?_, List.Forall₂.nil⟩
    rw [List.nil_append]
    exact (h.kept _ _ ret nals _ hanswer hneg hnone).symm
  · rcases h.returned _ _ ret nals _ hanswer hneg hsome with ⟨p, hbalance, hcoding⟩
    exact ⟨[p], hbalance, List.Forall₂.cons ⟨nals, hcoding, hunit⟩ List.Forall₂.nil⟩

/-- A library that holds `d` pictures back. -/
def sampleX265 (d : ℕ) : X265 (List (X265Picture Unit)) Unit :=
  { paramAlloc := true
    paramDefaultPreset := fun _ _ => 0
    encoderOpen := fun _ => some []
    encoderEncode := fun x pic =>
      match (x ++ [pic]).drop d with
      | [] => (0, [], x ++ [pic])
      | _ :: _ =>
        match x ++ [pic] with
        | [] => (0, [], [])
        | p :: rest => (1, [⟨if p.sliceType = .IDR then 19 else 1, [7]⟩], rest) }

theorem sampleX265_codes (d : ℕ) : (sampleX265 d).Codes (fun x => x)
    (fun p nals => nals = [⟨if p.sliceType = .IDR then 19 else 1, [7]⟩]) := by
  -- While fewer than `d` pictures are held, each is kept; then the first goes.
  have hcases (x : List (X265Picture Unit)) (pic : X265Picture Unit) :
      (sampleX265 d).encoderEncode x pic = (0, [], x ++ [pic]) ∨
        ∃ p rest, x ++ [pic] = p :: rest ∧ (sampleX265 d).encoderEncode x pic =
          (1, [⟨if p.sliceType = .IDR then 19 else 1, [7]⟩], rest) := by
    unfold sampleX265
    dsimp only
    split
    · exact Or.inl rfl
    · cases hx : x ++ [pic] with
      | nil => simp only [List.append_eq_nil_iff, List.cons_ne_self, and_false] at hx
      | cons p rest => exact Or.inr ⟨p, rest, rfl, rfl⟩
  refine ⟨fun param x h => (Option.some.inj h).symm, fun x pic ret nals x' h _ hnone => ?_,
    fun x pic ret nals x' h _ hsome => ?_, fun p nals h => ?_⟩
  · rcases hcases x pic with heq | ⟨p, rest, hx, heq⟩
    · rw [heq] at h
      cases h
      rfl
    · rw [heq] at h
      cases h
      rcases hnone with hret | hlength
      · exact absurd hret (by decide)
      · cases hlength
  · rcases hcases x pic with heq | ⟨p, rest, hx, heq⟩
    · rw [heq] at h
      cases h
      simp only [List.length_nil, or_self, not_true_eq_false] at hsome
    · rw [heq] at h
      cases h
      exact ⟨p, hx, rfl⟩
  · rw [h]
    by_cases hidr : p.sliceType = .IDR
    · -- The unit is an IDR exactly when the picture asks for one.
      simp only [hidr, ↓reduceIte, List.mem_cons, List.not_mem_nil, or_false, NAL_IDR_W_RADL,
        exists_eq_left, true_or]
    · simp only [hidr, if_false, List.mem_singleton, exists_eq_left, false_iff]
      decide

/-- A library with zero latency. -/
def promptX265 : X265 Unit Unit :=
  { paramAlloc := true
    paramDefaultPreset := fun _ _ => 0
    encoderOpen := fun _ => some ()
    encoderEncode := fun x pic => (1, [⟨if pic.sliceType = .IDR then 19 else 1, [7]⟩], x) }

theorem promptX265_codes : promptX265.Codes (fun _ => [])
    (fun p nals => nals = [⟨if p.sliceType = .IDR then 19 else 1, [7]⟩]) := by
  refine ⟨fun _ _ _ => rfl, fun x pic ret nals x' h _ hnone => ?_,
    fun x pic ret nals x' h _ _ => ?_, fun p nals h => ?_⟩
  · cases h
    rcases hnone with hret | hlength
    · exact absurd hret (by decide)
    · cases hlength
  · cases h
    exact ⟨pic, rfl, rfl⟩
  · rw [h]
    by_cases hidr : p.sliceType = .IDR
    · simp only [hidr, ↓reduceIte, List.mem_cons, List.not_mem_nil, or_false, NAL_IDR_W_RADL,
        exists_eq_left, true_or]
    · simp only [hidr, if_false, List.mem_singleton, exists_eq_left, false_iff]
      decide

end X265

end Encoders

end LoomHost
