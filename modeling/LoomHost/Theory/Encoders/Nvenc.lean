import LoomHost.Theory.Encoders.X265

/-!
# The Hardware Encoder on Linux

The wrapper of libavcodec sends a frame and asks for one packet with each picture. A
packet that is late once stays late: the context holds a frame more from then on,
and every later call returns the packet of an earlier picture.

## Main definitions

* `AvCodec.Codes`: What is assumed of libavcodec.

## Theorems

* `nvenc_balance`: What a call does to the frames a context holds.
* `nvenc_units`: The access units of a run.
-/

namespace LoomHost

namespace Encoders

open Media Delay

section AvCodec

variable {A P : Type*} (lib : AvCodec A P)

/-- The frame a call sends. -/
def avFrame (c : Call P) : AVFrame P :=
  { planes := c.planes, pts := c.pts, pictType := if c.forceIdr then .I else .NONE }

/-- What is assumed of libavcodec with the options that are set, with the frames a
    context holds, each with whether it is to be an IDR, and whether the context is
    still to be given its first: a frame that is sent is to be an IDR if it is the
    first or its type says so, packets come in the order of the frames, and the flag
    of a packet says whether it is a keyframe. -/
structure AvCodec.Codes (held : A → List (AVFrame P × Bool)) (fresh : A → Bool)
    (coding : AVFrame P × Bool → AVPacket → Prop) : Prop where
  opened : ∀ ctx opts ret a, lib.open2 ctx opts = (ret, a) → ¬ ret < 0 →
    held a = [] ∧ fresh a = true
  sent : ∀ a f ret a', lib.sendFrame a f = (ret, a') → ¬ ret < 0 →
    held a' = held a ++ [(f, f.pictType == .I || fresh a)] ∧ fresh a' = false
  waits : ∀ a ret pkt a', lib.receivePacket a = (ret, pkt, a') → ret = AVERROR_EAGAIN →
    held a' = held a ∧ fresh a' = fresh a
  received : ∀ a ret pkt a', lib.receivePacket a = (ret, pkt, a') → ¬ ret < 0 →
    (∃ p, held a = p :: held a' ∧ coding p pkt) ∧ fresh a' = fresh a
  key : ∀ p pkt, coding p pkt → (p.2 = true ↔ pkt.flags &&& AV_PKT_FLAG_KEY ≠ 0)

variable {lib} {held : A → List (AVFrame P × Bool)} {fresh : A → Bool}
  {coding : AVFrame P × Bool → AVPacket → Prop}
  {openSource : Session.MediaParams → Option (Source P)}

/-- A call sends a frame and asks for a packet. -/
theorem nvenc_step {e e' : NvencEncoder A} {c : Call P} {au : Option AccessUnit}
    (h : (nvencBackend lib openSource).encodeI420 e c.planes c.pts c.forceIdr =
      some (au, e')) :
    ∃ ret a ret' pkt, lib.sendFrame e.ctx (avFrame c) = (ret, a) ∧ ¬ ret < 0 ∧
      lib.receivePacket a = (ret', pkt, e'.ctx) ∧
      (ret' = AVERROR_EAGAIN ∧ au = none ∨ ¬ ret' < 0 ∧
        au = some { keyframe := pkt.flags &&& AV_PKT_FLAG_KEY != 0, data := pkt.data }) := by
  unfold nvencBackend at h
  dsimp only at h
  split at h
  · rename_i au₁ e₁ hencode
    rw [Option.some.injEq, Prod.mk.injEq] at h
    rcases h with ⟨rfl, rfl⟩
    rcases hsend : lib.sendFrame e.ctx (avFrame c) with ⟨ret, a⟩
    rcases hreceive : lib.receivePacket a with ⟨ret', pkt, a'⟩
    -- The picture type asked for is that of the frame handed over.
    have hgiven : lib.sendFrame e.ctx
        ⟨c.planes, c.pts, if c.forceIdr then .I else .NONE⟩ = (ret, a) := hsend
    unfold NvencEncoder.encodeI420 at hencode
    simp only [hgiven, hreceive] at hencode
    -- Sending fails, or no packet is there yet, or receiving fails, or a packet comes.
    split_ifs at hencode with hneg hagain hneg'
    · cases hencode
    · cases hencode
      exact ⟨ret, a, ret', pkt, rfl, hneg, hreceive, Or.inl ⟨hagain, rfl⟩⟩
    · cases hencode
    · cases hencode
      exact ⟨ret, a, ret', pkt, rfl, hneg, hreceive, Or.inr ⟨hneg', rfl⟩⟩
  · cases h

theorem nvenc_opened (h : lib.Codes held fresh coding) {cfg : EncoderConfig} {e : NvencEncoder A}
    (hopen : (nvencBackend lib openSource).openEncoder cfg = some e) :
    held e.ctx = [] ∧ fresh e.ctx = true := by
  unfold nvencBackend at hopen
  dsimp only at hopen
  unfold NvencEncoder.new at hopen
  split at hopen
  · cases hopen
  split at hopen
  · cases hopen
  split at hopen
  · cases hopen
  · rcases hctx : lib.open2 (avContext cfg) nvencOptions with ⟨ret, a⟩
    simp only [hctx] at hopen
    split at hopen
    · cases hopen
    · rename_i hneg
      split at hopen
      · cases hopen
      · cases hopen
        exact h.opened _ _ ret a hctx hneg

/-- What a call does to the frames a context holds. -/
theorem nvenc_balance (h : lib.Codes held fresh coding) {e e' : NvencEncoder A} {c : Call P}
    {aus : List AccessUnit}
    (hstep : callStep (nvencBackend lib openSource) e c = some (e', aus)) :
    fresh e'.ctx = false ∧
      ((aus = [] ∧ held e'.ctx = held e.ctx ++ [(avFrame c, c.forceIdr || fresh e.ctx)]) ∨
        ∃ p au pkt, aus = [au] ∧
          held e.ctx ++ [(avFrame c, c.forceIdr || fresh e.ctx)] = p :: held e'.ctx ∧
          coding p pkt ∧ au.data = pkt.data ∧ (au.keyframe = true ↔ p.2 = true)) := by
  rcases callStep_eq.mp hstep with ⟨au, hencode, rfl⟩
  rcases nvenc_step hencode with ⟨ret, a, ret', pkt, hsend, hneg, hreceive, hanswer⟩
  rcases h.sent _ _ ret a hsend hneg with ⟨hheld, hstale⟩
  -- The frame asks for an intra picture exactly when the IDR is forced.
  have htype : ((avFrame c).pictType == .I) = c.forceIdr := by
    unfold avFrame
    by_cases hforce : c.forceIdr = true
    · simp only [hforce, ↓reduceIte, BEq.rfl]
    · simp only [hforce, Bool.false_eq_true, ↓reduceIte, beq_eq_false_iff_ne, ne_eq, reduceCtorEq,
        not_false_eq_true]
  rw [htype] at hheld
  -- No packet: the frame is held. A packet: the one that is held longest goes.
  rcases hanswer with ⟨hagain, rfl⟩ | ⟨hneg', rfl⟩
  · rcases h.waits a ret' pkt _ hreceive hagain with ⟨hsame, hfresh⟩
    exact ⟨hfresh.trans hstale, Or.inl ⟨rfl, hsame.trans hheld⟩⟩
  · rcases h.received a ret' pkt _ hreceive hneg' with ⟨⟨p, hp, hcoding⟩, hfresh⟩
    refine ⟨hfresh.trans hstale, Or.inr ⟨p, _, pkt, rfl, hheld.symm.trans hp, hcoding, rfl, ?_⟩⟩
    rw [h.key p pkt hcoding]
    simp only [bne_iff_ne, ne_eq]

theorem nvenc_delays (h : lib.Codes held fresh coding) :
    Delays (callStep (nvencBackend lib openSource))
      (fun e c => (avFrame c, c.forceIdr || fresh e.ctx)) (fun e => held e.ctx)
      (fun p au => ∃ pkt, coding p pkt ∧ au.data = pkt.data ∧
        (au.keyframe = true ↔ p.2 = true)) := by
  intro e c e' aus hstep
  rcases (nvenc_balance h hstep).2 with ⟨rfl, hheld⟩ | ⟨p, au, pkt, rfl, hheld, hmade⟩
  · exact ⟨[], hheld.symm, List.Forall₂.nil⟩
  · exact ⟨[p], hheld, List.Forall₂.cons ⟨pkt, hmade⟩ List.Forall₂.nil⟩

/-- A call takes a packet at most, so the frames that are held do not become fewer. -/
theorem held_le_of_run (h : lib.Codes held fresh coding) (calls : List (Call P)) :
    ∀ {e e' : NvencEncoder A} {aus : List AccessUnit},
      Machine.exec (callStep (nvencBackend lib openSource)) e calls = some (e', aus) →
        (held e.ctx).length ≤ (held e'.ctx).length := by
  induction calls with
  | nil =>
      intro e e' aus hrun
      cases hrun
      exact le_refl _
  | cons c calls ih =>
      intro e e' aus hrun
      rcases Machine.exec_cons.mp hrun with ⟨e₁, first, rest, hstep, hrest, -⟩
      refine le_trans ?_ (ih hrest)
      -- One frame comes, and one packet goes at most.
      rcases (nvenc_balance h hstep).2 with ⟨-, hheld⟩ | ⟨p, au, pkt, -, hheld, -⟩
      · rw [hheld, List.length_append]
        exact Nat.le_add_right _ _
      · have hlength := congrArg List.length hheld
        rw [List.length_append, List.length_singleton, List.length_cons] at hlength
        omega

/-- A codec that holds `d` frames back. -/
def sampleAvCodec (d : ℕ) : AvCodec (List (AVFrame Unit × Bool) × Bool) Unit :=
  { findEncoderByName := fun _ => true
    allocContext3 := true
    optSet := fun _ _ => 0
    open2 := fun _ _ => (0, [], true)
    allocFrame := true
    allocPacket := true
    sendFrame := fun a f => (0, a.1 ++ [(f, f.pictType == .I || a.2)], false)
    receivePacket := fun a =>
      match a.1, a.1.drop d with
      | p :: rest, _ :: _ => (0, ⟨[7], if p.2 then 1 else 0⟩, rest, a.2)
      | _, _ => (AVERROR_EAGAIN, ⟨[], 0⟩, a) }

theorem sampleAvCodec_codes (d : ℕ) : (sampleAvCodec d).Codes Prod.fst Prod.snd
    (fun p pkt => pkt = ⟨[7], if p.2 then 1 else 0⟩) := by
  -- A packet comes once more than `d` frames are held.
  have hcases (a : List (AVFrame Unit × Bool) × Bool) :
      (sampleAvCodec d).receivePacket a = (AVERROR_EAGAIN, ⟨[], 0⟩, a) ∨
        ∃ p rest, a.1 = p :: rest ∧
          (sampleAvCodec d).receivePacket a = (0, ⟨[7], if p.2 then 1 else 0⟩, rest, a.2) := by
    unfold sampleAvCodec
    dsimp only
    split
    · rename_i p rest _ _ hp _
      exact Or.inr ⟨p, rest, hp, rfl⟩
    · exact Or.inl rfl
  refine ⟨fun ctx opts ret a h _ => ?_, fun a f ret a' h _ => ?_, fun a ret pkt a' h hagain => ?_,
    fun a ret pkt a' h hneg => ?_, fun p pkt h => ?_⟩
  · cases h
    exact ⟨rfl, rfl⟩
  · cases h
    exact ⟨rfl, rfl⟩
  · rcases hcases a with heq | ⟨p, rest, hp, heq⟩
    · rw [heq] at h
      cases h
      exact ⟨rfl, rfl⟩
    · rw [heq] at h
      cases h
      exact absurd hagain (by decide)
  · rcases hcases a with heq | ⟨p, rest, hp, heq⟩
    · rw [heq] at h
      cases h
      exact absurd (by decide) hneg
    · rw [heq] at h
      cases h
      exact ⟨⟨p, hp, rfl⟩, rfl⟩
  · rw [h]
    by_cases hidr : p.2 = true
    · rw [hidr]
      decide
    · simp only [hidr, Bool.false_eq_true, ↓reduceIte, Int32.zero_and, ne_eq, not_true_eq_false]

end AvCodec

end Encoders

end LoomHost
