import LoomHost.Core.Media

/-!
# The Turns of the Media Loop

What one turn of a media loop does, with what it found: the reconfiguration it
took, the picture, and what the encoder made of it. Every fact about runs of a
loop is a case analysis on these.

What encoders and sources do may differ from turn to turn, so a loop meets a
world of backends, one for each step taken anywhere. An encoder is known by the
configuration it was opened with and the calls it has had.

## Main definitions

* `configOf`: The encoder configuration of stream parameters.
* `Takes`, `drained`, `forces`: The beginning of a turn.
* `Turn`: The ways a turn goes.
* `Encodes`: The states of an encoder opened with a configuration.
* `Fresh`: Those in which it has returned nothing yet.
* `Sourced`: A thread with what its encoder and its capture have done.

## Theorems

* `tick_turn`: The ways of a turn are those of `tick`.
* `sendFrame_eq`: What sending an access unit does.
* `sourced_turn`: What a turn keeps.
-/

namespace LoomHost

namespace Media

open Session

/-- The encoder configuration of stream parameters. -/
def configOf (params : MediaParams) : EncoderConfig :=
  encoderConfig params.width.toUInt32 params.height.toUInt32 params.refresh.toUInt32
    params.bitrateKbps.toUInt32

section Turn

variable {E P : Type*} (backend : Backend E P) (streamId : UInt16)

/-- The reconfiguration at the beginning of a turn, if any has come. -/
inductive Takes (m : Thread E P) (t : Tick P) : Thread E P → Bool → Prop
  | nothing (hnone : t.reconfig = []) : Takes m t m false
  | reopened (params : MediaParams) (source : Source P) (encoder : E)
      (hlast : t.reconfig.getLast? = some params)
      (hencoder : backend.openEncoder (configOf params) = some encoder)
      (hsource : backend.openSource params = some source) :
      Takes m t { m with source, encoder, params, opened := m.opened + 1 } true

/-- Whether the picture of the turn is coded as an IDR. -/
def forces (m : Thread E P) (t : Tick P) (reconfigured : Bool) : Bool :=
  reconfigured || decide (m.idrWaiting + t.idr > 0)

/-- The requests are taken in, unless a reconfiguration has forced the IDR, and
    the source is asked for a picture. -/
def drained (m : Thread E P) (t : Tick P) (reconfigured : Bool) : Thread E P :=
  { m with
    idrWaiting := if reconfigured then m.idrWaiting + t.idr else 0
    source := ((m.source.picture m.frameSeq t.fill).map Prod.snd).getD m.source }

/-- The picture of the turn. -/
def picture (m : Thread E P) (t : Tick P) : Option P :=
  (m.source.picture m.frameSeq t.fill).bind Prod.fst

/-- The rendering of the picture panics. -/
def Panics (m : Thread E P) (t : Tick P) : Prop := m.source.picture m.frameSeq t.fill = none

/-- The ways a turn goes. -/
inductive Turn (m : Thread E P) (t : Tick P) : Option (Thread E P) × Option Frame → Prop
  | closed (hclosed : t.closed = true) : Turn m t (none, none)
  | reopenFailed (params : MediaParams) (hclosed : t.closed = false)
      (hlast : t.reconfig.getLast? = some params) (hfail : backend.openBoth params = none) :
      Turn m t (none, none)
  | panicked (m₁ : Thread E P) (b : Bool) (hclosed : t.closed = false)
      (htakes : Takes backend m t m₁ b) (hpanics : Panics m₁ t) : Turn m t (none, none)
  /-- The capture has no picture yet. -/
  | waits (m₁ : Thread E P) (b : Bool) (hclosed : t.closed = false)
      (htakes : Takes backend m t m₁ b) (hgoes : ¬ Panics m₁ t) (hpicture : picture m₁ t = none) :
      Turn m t (some (drained m₁ t b), none)
  /-- The encoder keeps the picture back, or drops it. -/
  | held (m₁ : Thread E P) (b : Bool) (planes : P) (encoder : E) (hclosed : t.closed = false)
      (htakes : Takes backend m t m₁ b) (hpicture : picture m₁ t = some planes)
      (hencode : backend.encodeI420 m₁.encoder planes (Int64.ofNat m₁.frameSeq.toNat)
        (forces m₁ t b) = some (none, encoder)) :
      Turn m t (some { drained m₁ t b with encoder }, none)
  | sent (m₁ : Thread E P) (b : Bool) (planes : P) (au : AccessUnit) (encoder : E)
      (hclosed : t.closed = false) (htakes : Takes backend m t m₁ b)
      (hpicture : picture m₁ t = some planes)
      (hencode : backend.encodeI420 m₁.encoder planes (Int64.ofNat m₁.frameSeq.toNat)
        (forces m₁ t b) = some (some au, encoder)) :
      Turn m t (some (sendFrame streamId { drained m₁ t b with encoder } t au).1,
        some (sendFrame streamId { drained m₁ t b with encoder } t au).2)
  | encodeFailed (m₁ : Thread E P) (b : Bool) (planes : P) (hclosed : t.closed = false)
      (htakes : Takes backend m t m₁ b) (hpicture : picture m₁ t = some planes)
      (hencode : backend.encodeI420 m₁.encoder planes (Int64.ofNat m₁.frameSeq.toNat)
        (forces m₁ t b) = none) :
      Turn m t (none, none)

/-- What a source that does not panic makes of a turn. -/
theorem picture_spec {m : Thread E P} {t : Tick P} {planes : Option P} {source : Source P}
    (b : Bool)
    (h : m.source.picture m.frameSeq t.fill = some (planes, source)) :
    ¬ Panics m t ∧ picture m t = planes ∧
      drained m t b =
        { m with idrWaiting := if b then m.idrWaiting + t.idr else 0, source } := by
  refine ⟨?_, ?_, ?_⟩
  · rw [Panics, h]
    exact Option.some_ne_none _
  · rw [picture, h, Option.bind_some]
  · rw [drained, h, Option.map_some, Option.getD_some]

/-- Both are opened, or one of the two is not. -/
theorem openBoth_some {params : MediaParams} {source : Source P} {encoder : E}
    (h : backend.openBoth params = some (source, encoder)) :
    backend.openEncoder (configOf params) = some encoder ∧
      backend.openSource params = some source := by
  unfold Backend.openBoth at h
  split at h
  · rename_i e he
    split at h
    · rename_i s hs
      rw [Option.some.injEq, Prod.mk.injEq] at h
      exact ⟨h.2 ▸ he, h.1 ▸ hs⟩
    · exact absurd h (by simp only [reduceCtorEq, not_false_eq_true])
  · exact absurd h (by simp only [reduceCtorEq, not_false_eq_true])

theorem reconfigure_takes (m m₁ : Thread E P) (t : Tick P) (b : Bool)
    (h : reconfigure backend m t.reconfig = some (m₁, b)) : Takes backend m t m₁ b := by
  unfold reconfigure at h
  split at h
  · rename_i params hlast
    split at h
    · rename_i source encoder hopen
      rw [Option.some.injEq, Prod.mk.injEq] at h
      rcases openBoth_some backend hopen with ⟨hencoder, hsource⟩
      rw [← h.1, ← h.2]
      exact Takes.reopened params source encoder hlast hencoder hsource
    · exact absurd h (by simp only [reduceCtorEq, not_false_eq_true])
  · rename_i hnone
    rw [Option.some.injEq, Prod.mk.injEq] at h
    rw [← h.1, ← h.2]
    exact Takes.nothing (List.getLast?_eq_none_iff.mp hnone)

theorem reconfigure_fails (m : Thread E P) (t : Tick P)
    (h : reconfigure backend m t.reconfig = none) :
    ∃ params, t.reconfig.getLast? = some params ∧ backend.openBoth params = none := by
  unfold reconfigure at h
  split at h
  · rename_i params hlast
    split at h
    · exact absurd h (by simp only [reduceCtorEq, not_false_eq_true])
    · rename_i hfail
      exact ⟨params, hlast, hfail⟩
  · exact absurd h (by simp only [reduceCtorEq, not_false_eq_true])

/-- What sending an access unit does, whatever becomes of the datagrams. -/
theorem sendFrame_eq (m : Thread E P) (t : Tick P) (au : AccessUnit) :
    ∃ dropGen body datagrams, sendFrame streamId m t au =
      ({ m with dropGen, frameSeq := m.frameSeq + 1 },
        { encoder := m.opened, frameSeq := m.frameSeq, au, body, sent := datagrams }) := by
  unfold sendFrame
  dsimp only
  generalize sendDatagrams t.sendDatagram m.dropGen 0 _ = r
  exact ⟨r.2, _, r.1, rfl⟩

/-- The ways of a turn are those of `tick`. -/
theorem tick_turn (m : Thread E P) (t : Tick P) :
    Turn backend streamId m t (tick backend streamId m t) := by
  unfold tick
  split
  · rename_i hclosed
    exact Turn.closed hclosed
  rename_i hopen
  have hclosed : t.closed = false := Bool.eq_false_iff.mpr hopen
  -- The reconfiguration comes first, and ends the loop if it cannot be opened.
  split
  · rename_i hfail
    rcases reconfigure_fails backend m t hfail with ⟨params, hlast, hfail⟩
    exact Turn.reopenFailed params hclosed hlast hfail
  · rename_i m₁ b hreconfigure
    have htakes := reconfigure_takes backend m m₁ t b hreconfigure
    dsimp only
    -- Then the picture, which a capture may not have yet, and then the encoder.
    split
    · rename_i hpanics
      exact Turn.panicked m₁ b hclosed htakes hpanics
    · rename_i source hpicture
      rcases picture_spec b hpicture with ⟨hgoes, hnone, hdrained⟩
      have hturn : Turn backend streamId m t (some (drained m₁ t b), none) :=
        Turn.waits m₁ b hclosed htakes hgoes hnone
      rw [hdrained] at hturn
      exact hturn
    · rename_i planes source hrendered
      rcases picture_spec b hrendered with ⟨-, hpicture, hdrained⟩
      split
      · rename_i au encoder hencode
        have hturn : Turn backend streamId m t
            (some (sendFrame streamId { drained m₁ t b with encoder } t au).1,
              some (sendFrame streamId { drained m₁ t b with encoder } t au).2) :=
          Turn.sent m₁ b planes au encoder hclosed htakes hpicture hencode
        rw [hdrained] at hturn
        exact hturn
      · rename_i encoder hencode
        have hturn : Turn backend streamId m t (some { drained m₁ t b with encoder }, none) :=
          Turn.held m₁ b planes encoder hclosed htakes hpicture hencode
        rw [hdrained] at hturn
        exact hturn
      · rename_i hencode
        exact Turn.encodeFailed m₁ b planes hclosed htakes hpicture hencode

end Turn

section World

variable {E P : Type*} (world : ℕ → Backend E P) (config : EncoderConfig)

/-- The states of an encoder opened with a configuration. -/
inductive Encodes : E → Prop
  | opened (n : ℕ) (e : E) (h : (world n).openEncoder config = some e) : Encodes e
  | encoded (n : ℕ) (e e' : E) (planes : P) (ts : Int64) (forceIdr : Bool)
      (out : Option AccessUnit) (he : Encodes e)
      (h : (world n).encodeI420 e planes ts forceIdr = some (out, e')) : Encodes e'

/-- The states of an encoder that has returned nothing yet. -/
inductive Fresh : E → Prop
  | opened (n : ℕ) (e : E) (h : (world n).openEncoder config = some e) : Fresh e
  | held (n : ℕ) (e e' : E) (planes : P) (ts : Int64) (forceIdr : Bool) (he : Fresh e)
      (h : (world n).encodeI420 e planes ts forceIdr = some (none, e')) : Fresh e'

/-- A thread that has sent these frames. An encoder that has returned nothing is
    fresh, and a capture without a picture has given its encoder none. -/
structure Sourced (sent : List Frame) (m : Thread E P) : Prop where
  encoder_le : ∀ g ∈ sent, g.encoder ≤ m.opened
  fresh : (∀ g ∈ sent, g.encoder ≠ m.opened) → Fresh world (configOf m.params) m.encoder
  waiting : m.source = .Captured none → ∀ g ∈ sent, g.encoder ≠ m.opened

end World

section Sourced

variable {E P : Type*} {world : ℕ → Backend E P} {sent : List Frame} {m m₁ : Thread E P}
  {t : Tick P} {n : ℕ}

/-- A thread that has just opened its encoder. -/
theorem sourced_opened (h : Fresh world (configOf m.params) m.encoder) : Sourced world [] m :=
  ⟨fun _ hg => absurd hg List.not_mem_nil, fun _ => h, fun _ _ hg => absurd hg List.not_mem_nil⟩

/-- A capture that is still without a picture has given none. -/
theorem picture_of_source (b : Bool) (h : (drained m t b).source = .Captured none) :
    picture m t = none := by
  unfold drained Source.picture at h
  unfold picture Source.picture
  cases hsource : m.source with
  | Synthetic render =>
      rw [hsource] at h
      cases hrender : render m.frameSeq with
      | none => simp only [hrender, Option.map_none, Option.bind_none]
      | some planes =>
          simp only [hrender, Option.map_some, Option.getD_some, reduceCtorEq] at h
  | Captured frame =>
      simp only [hsource, Option.map_some, Option.getD_some, Source.Captured.injEq] at h
      exact h

/-- A source without a picture, if it is no panic, is a capture that was so before. -/
theorem captured_of_picture (hgoes : ¬ Panics m t) (h : picture m t = none) :
    m.source = .Captured none := by
  unfold Panics Source.picture at hgoes
  unfold picture Source.picture at h
  cases hsource : m.source with
  | Synthetic render =>
      rw [hsource] at h hgoes
      cases hrender : render m.frameSeq with
      | none =>
          -- A pattern without a picture has panicked.
          exact absurd (by simp only [hrender, Option.map_none]) hgoes
      | some planes => simp only [hrender, Option.map_some, Option.bind_some, reduceCtorEq] at h
  | Captured frame =>
      rw [hsource] at h
      cases frame with
      | none => rfl
      | some planes =>
          cases hfill : t.fill <;>
            simp only [hfill, Option.bind_some, Option.orElse_eq_orElse, Option.orElse_none,
              Option.orElse_some, reduceCtorEq] at h

theorem sourced_takes {b : Bool} (ht : Takes (world n) m t m₁ b) (h : Sourced world sent m) :
    Sourced world sent m₁ := by
  cases ht with
  | nothing _ => exact h
  | reopened params source encoder _ hencoder _ =>
      -- The encoder is new, so no frame is of it.
      refine ⟨fun g hg => (h.encoder_le g hg).trans (Nat.le_succ _),
        fun _ => Fresh.opened n encoder hencoder, fun _ g hg => ?_⟩
      exact ((h.encoder_le g hg).trans_lt (Nat.lt_succ_self _)).ne

/-- What a turn keeps of a thread that goes on. -/
theorem sourced_turn {streamId : UInt16} {r : Option (Thread E P) × Option Frame}
    (ht : Turn (world n) streamId m t r) (h : Sourced world sent m) :
    ∀ m', r.1 = some m' → Sourced world (sent ++ r.2.toList) m' := by
  intro m' hm'
  cases ht with
  | waits m₁ b _ htakes hgoes hpicture =>
      have h₁ := sourced_takes htakes h
      rw [← Option.some.inj hm', Option.toList_none, List.append_nil]
      exact ⟨h₁.encoder_le, h₁.fresh, fun _ => h₁.waiting (captured_of_picture hgoes hpicture)⟩
  | held m₁ b planes encoder _ htakes hpicture hencode =>
      have h₁ := sourced_takes htakes h
      rw [← Option.some.inj hm', Option.toList_none, List.append_nil]
      -- A source that has given a picture is not waiting for its first one.
      refine ⟨h₁.encoder_le, fun hg => Fresh.held n _ _ _ _ _ (h₁.fresh hg) hencode, fun hs => ?_⟩
      exact absurd (hpicture.symm.trans (picture_of_source b hs)) (Option.some_ne_none _)
  | sent m₁ b planes au encoder _ htakes hpicture hencode =>
      have h₁ := sourced_takes htakes h
      rcases sendFrame_eq streamId { drained m₁ t b with encoder } t au with
        ⟨dropGen, body, datagrams, heq⟩
      rw [heq] at hm' ⊢
      rw [← Option.some.inj hm', Option.toList_some]
      -- The new frame is of the newest encoder, which is not fresh any more.
      refine ⟨fun g hg => ?_, fun hg => ?_, fun hs => ?_⟩
      · rcases List.mem_append.mp hg with hg | hg
        · exact h₁.encoder_le g hg
        · exact List.mem_singleton.mp hg ▸ le_rfl
      · exact absurd rfl (hg _ (List.mem_append_right _ List.mem_cons_self))
      · exact absurd (hpicture.symm.trans (picture_of_source b hs)) (Option.some_ne_none _)
  | _ => cases hm'

end Sourced

end Media

end LoomHost
