import LoomHost.Core.Media
import LoomHost.Theory.Datagram
import LoomHost.Theory.Reassembly.Origin

/-!
# Reference Safety From Encoder to Decoder

The access units of a media loop carry the numbers 0, 1, 2 and so on, whatever
becomes of their datagrams, and the encoder is never exchanged for an earlier
one. So what an access unit references, the one its encoder returned before it,
is numbered just below. The receiver hands on an access unit that is not a
keyframe only right after the one numbered just below it.

The encoder is an assumption, in `EncoderContract`: which access units it
references is a relation on the positions of a log.

## Main definitions

* `Numbered`: The log of a loop.
* `Previous`: The access unit an encoder returned before another.
* `EncoderContract`: What is assumed of an encoder.
* `fragmentOf`: What a datagram of an access unit is to the reassembler.

## Theorems

* `tick_cases`: What one tick does to the numbers.
* `numbered_run`: The log of every run is numbered.
* `previous_iff`: The previous access unit of an encoder is numbered just below.
* `received_of_sent`: A datagram that arrives is a fragment of its access unit.
* `references_delivered`: The reference of a delivered access unit has been
  delivered just before it.
-/

namespace LoomHost

namespace Media

open Session Reassembly Datagram

/-- The log of a loop: its access units are numbered from `first` on, its
    encoders from `opened` on and never back, and every datagram sent is a
    fragment of its access unit. -/
structure Numbered (streamId : UInt16) (first : UInt32) (opened : ℕ) (l : List Frame) : Prop where
  numbers : ∀ k f, l[k]? = some f → f.frameSeq = first + UInt32.ofNat k
  above : ∀ f ∈ l, opened ≤ f.encoder
  encoders : l.Pairwise (fun f g => f.encoder ≤ g.encoder)
  fragments : ∀ f ∈ l, ∀ dg ∈ f.sent,
    dg ∈ fragment streamId f.frameSeq f.au.keyframe f.body

section Loop

variable {E P : Type*} (backend : Backend E P) (streamId : UInt16)

/-- What is sent is what was to be sent, or some of it. -/
theorem mem_sendDatagrams (sendDatagram : ℕ → Bool) (dg : List UInt8)
    (frags : List (List UInt8)) : ∀ (dropGen : DropInjector) (sent : ℕ),
    dg ∈ (sendDatagrams sendDatagram dropGen sent frags).1 → dg ∈ frags := by
  induction frags with
  | nil => exact fun _ _ h => h
  | cons x frags ih =>
      intro dropGen sent h
      unfold sendDatagrams at h
      dsimp only at h
      split at h
      · -- Dropped on purpose.
        exact List.mem_cons_of_mem _ (ih _ _ h)
      split at h
      · rcases List.mem_cons.mp h with rfl | h
        · exact List.mem_cons_self
        · exact List.mem_cons_of_mem _ (ih _ _ h)
      · -- The connection refuses the datagram, and the rest are not tried.
        exact absurd h List.not_mem_nil

/-- A reconfiguration leaves the counter, and opens at most one encoder more. -/
theorem reconfigure_spec (m m' : Thread E P) (reconfig : List MediaParams) (b : Bool)
    (h : reconfigure backend m reconfig = some (m', b)) :
    m'.frameSeq = m.frameSeq ∧ m.opened ≤ m'.opened := by
  unfold reconfigure at h
  split at h
  · split at h
    · rw [Option.some.injEq, Prod.mk.injEq] at h
      rw [← h.1]
      exact ⟨rfl, Nat.le_succ _⟩
    · exact absurd h (by simp only [reduceCtorEq, not_false_eq_true])
  · rw [Option.some.injEq, Prod.mk.injEq] at h
    rw [← h.1]
    exact ⟨rfl, le_rfl⟩

/-- Sending an access unit takes a number, and sends some of its fragments. -/
theorem sendFrame_spec (m : Thread E P) (t : Tick P) (au : AccessUnit) :
    (sendFrame streamId m t au).1.frameSeq = m.frameSeq + 1 ∧
    (sendFrame streamId m t au).1.opened = m.opened ∧
    (sendFrame streamId m t au).2.frameSeq = m.frameSeq ∧
    (sendFrame streamId m t au).2.encoder = m.opened ∧
    ∀ dg ∈ (sendFrame streamId m t au).2.sent,
      dg ∈ fragment streamId m.frameSeq (sendFrame streamId m t au).2.au.keyframe
        (sendFrame streamId m t au).2.body := by
  unfold sendFrame
  dsimp only
  refine ⟨rfl, rfl, rfl, rfl, fun dg hdg => ?_⟩
  exact mem_sendDatagrams t.sendDatagram dg _ m.dropGen 0 hdg

/-- A frame body is the capture time stamp and the access unit. -/
theorem length_sendFrame_body (m : Thread E P) (t : Tick P) (au : AccessUnit) :
    (sendFrame streamId m t au).2.body.length =
      8 + (sendFrame streamId m t au).2.au.data.length := by
  unfold sendFrame
  dsimp only
  rw [List.length_append, BigEndian.length_toBE]

/-- What one tick does to the numbers. -/
inductive Ticked (m : Thread E P) : Option (Thread E P) × Option Frame → Prop
  /-- The loop stops. -/
  | stopped : Ticked m (none, none)
  /-- There is no picture, or the encoder returns nothing. -/
  | silent (m' : Thread E P) (hseq : m'.frameSeq = m.frameSeq) (hopened : m.opened ≤ m'.opened) :
      Ticked m (some m', none)
  /-- The encoder returns an access unit. -/
  | returned (m' : Thread E P) (f : Frame) (hseq : m'.frameSeq = m.frameSeq + 1)
      (hopened : m.opened ≤ m'.opened) (hnum : f.frameSeq = m.frameSeq)
      (hencoder : f.encoder = m'.opened)
      (hsent : ∀ dg ∈ f.sent, dg ∈ fragment streamId f.frameSeq f.au.keyframe f.body) :
      Ticked m (some m', some f)

/-- An access unit sent in a tick. -/
theorem ticked_send (m m' : Thread E P) (t : Tick P) (au : AccessUnit)
    (hseq : m'.frameSeq = m.frameSeq) (hopened : m.opened ≤ m'.opened) :
    Ticked streamId m
      (some (sendFrame streamId m' t au).1, some (sendFrame streamId m' t au).2) := by
  have hspec := sendFrame_spec streamId m' t au
  generalize sendFrame streamId m' t au = r at hspec ⊢
  rcases hspec with ⟨hnext, hsame, hnum, hencoder, hsent⟩
  refine Ticked.returned r.1 r.2 ?_ ?_ (hnum.trans hseq) (hencoder.trans hsame.symm) ?_
  · rw [hnext, hseq]
  · rw [hsame]
    exact hopened
  · rw [hnum]
    exact hsent

theorem tick_cases (m : Thread E P) (t : Tick P) :
    Ticked streamId m (tick backend streamId m t) := by
  unfold tick
  split
  · exact Ticked.stopped
  split
  · exact Ticked.stopped
  · rename_i m' reconfigured hreconfigure
    rcases reconfigure_spec backend m m' t.reconfig reconfigured hreconfigure with ⟨hseq, hopened⟩
    dsimp only
    split
    · -- The rendering has panicked.
      exact Ticked.stopped
    · -- The capture source has no picture.
      exact Ticked.silent _ hseq hopened
    · split
      · exact ticked_send streamId m _ t _ hseq hopened
      · exact Ticked.silent _ hseq hopened
      · exact Ticked.stopped

theorem numbered_nil (first : UInt32) (opened : ℕ) : Numbered streamId first opened [] :=
  ⟨fun k f h => absurd h (by simp only [List.length_nil, not_lt_zero, not_false_eq_true,
    getElem?_neg, reduceCtorEq]), fun f hf => absurd hf List.not_mem_nil, List.Pairwise.nil,
    fun f hf => absurd hf List.not_mem_nil⟩

/-- A log with one access unit before it. -/
theorem Numbered.cons {first : UInt32} {opened : ℕ} {l : List Frame} (f : Frame)
    (h : Numbered streamId (first + 1) f.encoder l) (hopened : opened ≤ f.encoder)
    (hnum : f.frameSeq = first)
    (hsent : ∀ dg ∈ f.sent, dg ∈ fragment streamId f.frameSeq f.au.keyframe f.body) :
    Numbered streamId first opened (f :: l) := by
  refine ⟨fun k g hg => ?_, fun g hg => ?_, List.pairwise_cons.mpr ⟨h.above, h.encoders⟩,
    fun g hg => ?_⟩
  · cases k with
    | zero =>
        rw [← Option.some.inj hg, hnum]
        exact (UInt32.add_zero first).symm
    | succ k =>
        -- Position `k` of the rest, numbered from `first + 1` on.
        rw [h.numbers k g hg, UInt32.ofNat_add, UInt32.add_assoc, UInt32.add_comm (UInt32.ofNat k)]
        rfl
  · rcases List.mem_cons.mp hg with rfl | hg
    · exact hopened
    · exact hopened.trans (h.above g hg)
  · rcases List.mem_cons.mp hg with rfl | hg
    · exact hsent
    · exact h.fragments g hg

/-- The log of a loop, from any state. -/
theorem numbered_frames (ticks : List (Tick P)) : ∀ m : Thread E P,
    Numbered streamId m.frameSeq m.opened (frames backend streamId m ticks) := by
  induction ticks with
  | nil => exact fun m => numbered_nil streamId _ _
  | cons t ticks ih =>
      intro m
      have hcases := tick_cases backend streamId m t
      rw [frames]
      generalize tick backend streamId m t = r at hcases ⊢
      cases hcases with
      | stopped => exact numbered_nil streamId _ _
      | silent m' hseq hopened =>
          have hrest := ih m'
          rw [hseq] at hrest
          exact ⟨hrest.numbers, fun f hf => hopened.trans (hrest.above f hf), hrest.encoders,
            hrest.fragments⟩
      | returned m' f hseq hopened hnum hencoder hsent =>
          -- The rest starts from the next number and the encoder of this one.
          have hrest := ih m'
          rw [hseq, ← hencoder] at hrest
          exact hrest.cons streamId f (hencoder ▸ hopened) hnum hsent

/-- The log of every run is numbered from 0. -/
theorem numbered_run (params : MediaParams) (dropPercent : UInt32) (ticks : List (Tick P)) :
    Numbered streamId 0 0 (run backend streamId params dropPercent ticks) := by
  unfold run
  split
  · rename_i source encoder _
    have h := numbered_frames backend streamId ticks
      { encoder, source, params, dropGen := DropInjector.new dropPercent, frameSeq := 0,
        idrWaiting := 0, opened := 1 }
    exact ⟨h.numbers, fun f hf => Nat.zero_le _, h.encoders, h.fragments⟩
  · exact numbered_nil streamId 0 0

end Loop

section References

variable {streamId : UInt16} {l : List Frame}

/-- Position `j` of a log holds the access unit that the encoder of position
    `k` returned before that one. -/
def Previous (l : List Frame) (k j : ℕ) : Prop :=
  j < k ∧ ∃ f g, l[k]? = some f ∧ l[j]? = some g ∧ g.encoder = f.encoder ∧
    ∀ i h, j < i → i < k → l[i]? = some h → h.encoder ≠ f.encoder

/-- What is assumed of an encoder, with the access units of a log that each one
    references: the first one it returns is a keyframe, and one that is not
    references just the one it returned before. -/
structure EncoderContract (l : List Frame) (references : ℕ → ℕ → Prop) : Prop where
  first : ∀ (k : ℕ) (f : Frame), l[k]? = some f →
    (∀ (j : ℕ) (g : Frame), j < k → l[j]? = some g → g.encoder ≠ f.encoder) → f.au.keyframe = true
  previous : ∀ (k : ℕ) (f : Frame), l[k]? = some f → f.au.keyframe = false →
    ∀ j, references k j ↔ Previous l k j

/-- As many access units as there are numbers do not wrap. -/
theorem Numbered.toNat_of_le (h : Numbered streamId 0 0 l) (hfew : l.length ≤ 4294967296) (k : ℕ)
    (f : Frame) (hf : l[k]? = some f) : f.frameSeq.toNat = k := by
  have hk := (List.getElem?_eq_some_iff.mp hf).1
  rw [h.numbers k f hf, UInt32.zero_add]
  exact UInt32.toNat_ofNat_of_lt (by simp only [UInt32.size]; omega)

theorem Numbered.toNat (h : Numbered streamId 0 0 l) (hfew : l.length < 2 ^ 32) (k : ℕ)
    (f : Frame) (hf : l[k]? = some f) : f.frameSeq.toNat = k :=
  h.toNat_of_le (le_of_lt hfew) k f hf

theorem encoder_le (h : l.Pairwise fun f g => f.encoder ≤ g.encoder) (i j : ℕ) (f g : Frame)
    (hf : l[i]? = some f) (hg : l[j]? = some g) (hij : i ≤ j) : f.encoder ≤ g.encoder := by
  rcases hij.lt_or_eq with hlt | rfl
  · rcases List.getElem?_eq_some_iff.mp hf with ⟨hi, rfl⟩
    rcases List.getElem?_eq_some_iff.mp hg with ⟨hj, rfl⟩
    exact List.pairwise_iff_getElem.mp h i j hi hj hlt
  · rw [hf, Option.some.injEq] at hg
    rw [hg]

/-- Encoders come one after the other, so the access unit an encoder returned
    before another is the one just below it. -/
theorem previous_iff (h : l.Pairwise fun f g => f.encoder ≤ g.encoder) (k i : ℕ) (f g : Frame)
    (hf : l[k]? = some f) (hg : l[i]? = some g) (hi : i < k) (hsame : g.encoder = f.encoder)
    (j : ℕ) : Previous l k j ↔ j + 1 = k := by
  -- From `i` on, up to `k`, every access unit is from the same encoder.
  have hbetween : ∀ n x, i ≤ n → n ≤ k → l[n]? = some x → x.encoder = f.encoder := by
    intro n x hin hnk hx
    have hlow := encoder_le h i n g x hg hx hin
    have hhigh := encoder_le h n k x f hx hf hnk
    omega
  have hlt := (List.getElem?_eq_some_iff.mp hf).1
  constructor
  · rintro ⟨hjk, f', g', hf', hg', -, hnone⟩
    rw [hf, Option.some.injEq] at hf'
    subst hf'
    -- Were there one in between, it would be the one returned just before.
    by_contra hne
    have hbelow := List.getElem?_eq_getElem (l := l) (i := k - 1) (by omega)
    exact hnone (k - 1) _ (by omega) (by omega) hbelow
      (hbetween (k - 1) _ (by omega) (by omega) hbelow)
  · rintro rfl
    have hbelow := List.getElem?_eq_getElem (l := l) (i := j) (by omega)
    refine ⟨Nat.lt_succ_self j, f, _, hf, hbelow, hbetween j _ (by omega) (by omega) hbelow, ?_⟩
    intro n x hjn hnj
    omega

/-- What an access unit that is not a keyframe references is numbered just
    below it. -/
theorem EncoderContract.references_iff {references : ℕ → ℕ → Prop}
    (h : EncoderContract l references) (hl : l.Pairwise fun f g => f.encoder ≤ g.encoder) (k : ℕ)
    (f : Frame) (hf : l[k]? = some f) (hkey : f.au.keyframe = false) (j : ℕ) :
    references k j ↔ j + 1 = k := by
  by_cases hfirst : ∀ j g, j < k → l[j]? = some g → g.encoder ≠ f.encoder
  · -- The first of an encoder is a keyframe.
    rw [h.first k f hf hfirst] at hkey
    exact absurd hkey (by simp only [reduceCtorEq, not_false_eq_true])
  · simp only [not_forall, not_not] at hfirst
    rcases hfirst with ⟨i, g, hi, hg, hsame⟩
    rw [h.previous k f hf hkey j]
    exact previous_iff hl k i f g hf hg hi hsame j

end References

section Receiver

variable {streamId : UInt16} {l : List Frame}

/-- The fragment that the datagram of an access unit is to the reassembler. -/
def fragmentOf (f : Frame) (i : ℕ) : Fragment :=
  { frameSeq := f.frameSeq, fragIndex := UInt16.ofNat i,
    fragCount := UInt16.ofNat (fragCount f.body), keyframe := f.au.keyframe }

/-- The casts to 16 bits lose nothing of an access unit that is not too long. -/
theorem fragmentOf_index (f : Frame) (i : ℕ) (hsmall : f.body.length ≤ 65535 * MAX_PAYLOAD)
    (hi : i < fragCount f.body) : (fragmentOf f i).fragIndex.toNat = i :=
  header_index 0 f.frameSeq f.au.keyframe f.body i hsmall hi

theorem fragmentOf_count (f : Frame) (i : ℕ) (hsmall : f.body.length ≤ 65535 * MAX_PAYLOAD) :
    (fragmentOf f i).fragCount.toNat = fragCount f.body :=
  header_count 0 f.frameSeq f.au.keyframe f.body i hsmall

theorem received_fragment (f : Frame) (i : ℕ) (hsmall : f.body.length ≤ 65535 * MAX_PAYLOAD)
    (hi : i < fragCount f.body) (extra : List UInt16) (tMs : Int64) :
    received extra streamId (tMs,
        (header streamId f.frameSeq f.au.keyframe f.body i).encode (chunk f.body i)) =
      if Accepts extra streamId then some (tMs, fragmentOf f i) else none := by
  rw [received, decode_fragment streamId f.frameSeq f.au.keyframe f.body extra i hsmall hi]
  by_cases haccepts : Accepts extra streamId
  · have hstream : (header streamId f.frameSeq f.au.keyframe f.body i).streamId = streamId :=
      rfl
    rw [if_pos haccepts, if_pos haccepts]
    dsimp only
    rw [if_pos hstream]
    rfl
  · rw [if_neg haccepts, if_neg haccepts]

/-- A datagram that arrives is a fragment of its access unit. -/
theorem fragmentOf_sent (h : Numbered streamId 0 0 l) (f : Frame) (hf : f ∈ l)
    (hsmall : f.body.length ≤ 65535 * MAX_PAYLOAD) (extra : List UInt16) (tMs : Int64)
    (dg : List UInt8) (hdg : dg ∈ f.sent) (x : Int64 × Fragment)
    (hx : received extra streamId (tMs, dg) = some x) :
    ∃ i, i < fragCount f.body ∧ x = (tMs, fragmentOf f i) ∧
      (header streamId f.frameSeq f.au.keyframe f.body i).encode (chunk f.body i) = dg := by
  rcases (mem_fragment streamId f.frameSeq f.au.keyframe f.body dg).mp
    (h.fragments f hf dg hdg) with ⟨i, hi, rfl⟩
  rw [received_fragment f i hsmall hi] at hx
  split_ifs at hx
  exact ⟨i, hi, (Option.some.inj hx).symm, rfl⟩

/-- A datagram that arrives is a fragment of its access unit, by its number and
    its flag. -/
theorem received_of_sent (h : Numbered streamId 0 0 l) (f : Frame) (hf : f ∈ l)
    (hsmall : f.body.length ≤ 65535 * MAX_PAYLOAD) (extra : List UInt16) (tMs : Int64)
    (dg : List UInt8) (hdg : dg ∈ f.sent) (x : Int64 × Fragment)
    (hx : received extra streamId (tMs, dg) = some x) :
    x.2.frameSeq = f.frameSeq ∧ x.2.keyframe = f.au.keyframe := by
  rcases fragmentOf_sent h f hf hsmall extra tMs dg hdg x hx with ⟨i, -, rfl, -⟩
  exact ⟨rfl, rfl⟩

/-- A delivered frame is an access unit of the log, at the position of its
    number. -/
theorem delivered_of_sent (h : Numbered streamId 0 0 l) (hfew : l.length < 2 ^ 32)
    (hsmall : ∀ f ∈ l, f.body.length ≤ 65535 * MAX_PAYLOAD) (extra : List UInt16)
    (arrivals : List (Int64 × List UInt8)) (harrive : ∀ a ∈ arrivals, ∃ f ∈ l, a.2 ∈ f.sent)
    (d : UInt32 × Bool)
    (hd : d ∈ deliveries (receive extra streamId arrivals).events) :
    ∃ f, l[d.1.toNat]? = some f ∧ d.2 = f.au.keyframe := by
  rcases Reassembler.mem_deliveries _ d hd with ⟨x, hx, hseq, hkey⟩
  rcases List.mem_filterMap.mp hx with ⟨⟨tMs, dg⟩, ha, hx⟩
  rcases harrive _ ha with ⟨f, hf, hdg⟩
  rcases received_of_sent h f hf (hsmall f hf) extra tMs dg hdg x hx with ⟨hnum, hflag⟩
  rcases List.getElem?_of_mem hf with ⟨k, hk⟩
  refine ⟨f, ?_, hkey.symm.trans hflag⟩
  rw [← hseq, hnum, h.toNat hfew k f hk]
  exact hk

end Receiver

/-- Reference safety, from the encoder to the decoder. In every run of a media
    loop with fewer than 2^32 access units, each of at most 65535 fragments, and
    for every order in which any of its datagrams arrive, any number of times
    each: a delivered frame is an access unit of the run, and if it is not a
    keyframe, the one access unit it references is the one delivered
    immediately before it. -/
theorem references_delivered {E P : Type*} (backend : Backend E P) (streamId : UInt16)
    (params : MediaParams) (dropPercent : UInt32) (ticks : List (Tick P))
    (references : ℕ → ℕ → Prop)
    (hfew : (run backend streamId params dropPercent ticks).length < 2 ^ 32)
    (hsmall : ∀ f ∈ run backend streamId params dropPercent ticks,
      f.body.length ≤ 65535 * MAX_PAYLOAD)
    (hencoder : EncoderContract (run backend streamId params dropPercent ticks) references)
    (extraVideoStreams : List UInt16) (arrivals : List (Int64 × List UInt8))
    (harrive : ∀ a ∈ arrivals, ∃ f ∈ run backend streamId params dropPercent ticks,
      a.2 ∈ f.sent) :
    ∀ before d after,
      deliveries (receive extraVideoStreams streamId arrivals).events = before ++ d :: after →
      ∃ f, (run backend streamId params dropPercent ticks)[d.1.toNat]? = some f ∧
        d.2 = f.au.keyframe ∧
        (f.au.keyframe = false → ∃ j, (∀ i, references d.1.toNat i ↔ i = j) ∧
          ∃ p, before.getLast? = some p ∧ p.1.toNat = j) := by
  intro before d after heq
  have hnumbered := numbered_run backend streamId params dropPercent ticks
  have hd : d ∈ deliveries (receive extraVideoStreams streamId arrivals).events := by
    rw [heq]
    exact List.mem_append_right _ List.mem_cons_self
  rcases delivered_of_sent hnumbered hfew hsmall extraVideoStreams arrivals harrive d hd with
    ⟨f, hf, hflag⟩
  refine ⟨f, hf, hflag, fun hkey => ?_⟩
  -- Gating lets it through only right after the one numbered just below it.
  have hchain := Reassembler.deliveries_decodable
    (arrivals.filterMap (received extraVideoStreams streamId))
  rcases hchain.linked before d after heq (hflag.trans hkey) with ⟨p, hp, hnum⟩
  refine ⟨frameNum p, fun i => ?_, p, hp, rfl⟩
  rw [hencoder.references_iff hnumbered.encoders d.1.toNat f hf hkey i]
  simp only [frameNum] at hnum ⊢
  omega

/-- An encoder that returns a keyframe for its first picture, nothing for its
    second, and then an access unit for each one. -/
def sampleBackend : Backend ℕ Unit :=
  { openEncoder := fun _ => some 0
    openSource := fun _ => some (.Captured none)
    encodeI420 := fun n _ _ forceIdr =>
      if n = 1 then some (none, n + 1)
      else some (some { keyframe := n = 0 || forceIdr, data := [UInt8.ofNat n] }, n + 1) }

def sampleTick : Tick Unit :=
  { closed := false, reconfig := [], idr := 0, fill := some (), captureTs := 7,
    sendDatagram := fun _ => true }

/-- Three ticks and one with a reconfiguration: a keyframe, another access unit,
    and the keyframe of the second encoder. -/
def sampleRun : List Frame :=
  run sampleBackend 0 {} 0
    [sampleTick, sampleTick, sampleTick, { sampleTick with reconfig := [{}] }]

/-- The datagrams in order, the first one twice. -/
def sampleArrivals : List (Int64 × List UInt8) :=
  [(0, [76, 3, 0, 0, 0, 0, 0, 0, 0, 0, 0, 1, 0, 0, 0, 0, 0, 0, 0, 7, 0]),
    (1, [76, 3, 0, 0, 0, 0, 0, 0, 0, 0, 0, 1, 0, 0, 0, 0, 0, 0, 0, 7, 0]),
    (2, [76, 2, 0, 0, 0, 0, 0, 1, 0, 0, 0, 1, 0, 0, 0, 0, 0, 0, 0, 7, 2]),
    (3, [76, 3, 0, 0, 0, 0, 0, 2, 0, 0, 0, 1, 0, 0, 0, 0, 0, 0, 0, 7, 0])]

theorem sampleRun_contract : EncoderContract sampleRun (Previous sampleRun) := by
  have hfirst : ∀ k < sampleRun.length, ∀ f ∈ sampleRun[k]?, f.au.keyframe = true ∨
      ∃ j < k, ∃ g ∈ sampleRun[j]?, g.encoder = f.encoder := by
    decide
  refine ⟨fun k f hf hnone => ?_, fun k f _ _ j => Iff.rfl⟩
  rcases hfirst k (List.getElem?_eq_some_iff.mp hf).1 f hf with hkey | ⟨j, hj, g, hg, hsame⟩
  · exact hkey
  · exact absurd hsame (hnone j g hj hg)

theorem references_delivered_sample :
    deliveries (receive [] 0 sampleArrivals).events = [(0, true), (1, false), (2, true)] ∧
    ∃ f, sampleRun[1]? = some f ∧ false = f.au.keyframe ∧
      (f.au.keyframe = false → ∃ j, (∀ i, Previous sampleRun 1 i ↔ i = j) ∧
        ∃ p, [((0 : UInt32), true)].getLast? = some p ∧ p.1.toNat = j) := by
  have hevents : deliveries (receive [] 0 sampleArrivals).events =
      [(0, true), (1, false), (2, true)] := by decide
  exact ⟨hevents, references_delivered sampleBackend 0 {} 0 _ (Previous sampleRun) (by decide)
    (by decide) sampleRun_contract [] sampleArrivals (by decide) [(0, true)] (1, false)
    [(2, true)] hevents⟩

end Media

end LoomHost
