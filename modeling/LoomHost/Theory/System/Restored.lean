import LoomHost.Theory.Reassembly.InOrder
import LoomHost.Theory.System.Requests
import LoomHost.Theory.System.Threads

/-!
# From a Request to a Restored Stream

The way of a request for an IDR, from the host back to the client that has sent
it. The turn of the media thread that takes the request makes the next access
unit a keyframe, which is newer than everything the client can have seen. When
it arrives, with the access units after it, they are delivered one after the
other, whatever state the client's reassembler was in when it asked, and it does
not ask again.

The network may duplicate the new datagrams, deliver the old ones at any time, and
mix in those of the other streams. It keeps the order of the new ones.

## Main definitions

* `KeepsOrder`: No datagram arrives before one that was sent before it.
* `runOf`: Access units of a log, as a run of frames.

## Theorems

* `heard_new`, `heard_of_datagram`: Datagrams and the fragments they carry.
* `inOrder_of_keepsOrder`: What arrives keeps the order of the run.
* `restored_of_numbered`: A log whose new part starts with a keyframe.
* `keyframe_after`, `stream_restored`: The first access units after a request.
-/

namespace LoomHost

namespace Media

open Session Reassembly Datagram

/-- Everything sent arrives, any number of times, and nothing arrives before what
    was sent before it. -/
structure KeepsOrder (sent : List (List UInt8)) (arrivals : List (Int64 × List UInt8)) :
    Prop where
  arrive : ∀ dg ∈ sent, ∃ a ∈ arrivals, a.2 = dg
  ordered : ∀ p a s, arrivals = p ++ a :: s → ∀ u v, sent = u ++ a.2 :: v →
    ∀ dg ∈ u, ∃ b ∈ p, b.2 = dg

/-- Access units numbered from `k` on, as a run of frames. -/
def runOf (k : ℕ) (first : Frame) (more : List Frame) : FrameRun :=
  { first := k
    more := more.length
    count := fun n => UInt16.ofNat (fragCount ((first :: more).getD (n - k) first).body)
    keyframe := fun n => ((first :: more).getD (n - k) first).au.keyframe }

/-- The datagram of an access unit at position `i`. -/
def datagram (streamId : UInt16) (f : Frame) (i : ℕ) : List UInt8 :=
  (header streamId f.frameSeq f.au.keyframe f.body i).encode (chunk f.body i)

section Receiver

variable {streamId : UInt16} {l old : List Frame} {first : Frame} {more rest : List Frame}
  {extra : List UInt16}

theorem runOf_frame {k j : ℕ} {f : Frame} (hf : (first :: more)[j]? = some f) :
    (runOf k first more).count (k + j) = UInt16.ofNat (fragCount f.body) ∧
      (runOf k first more).keyframe (k + j) = f.au.keyframe := by
  unfold runOf
  simp only [add_tsub_cancel_left, List.getD_eq_getElem?_getD, hf, Option.getD_some, and_self]

/-- The datagrams of an access unit before the one at `i`, that one, and the others. -/
theorem fragment_split (streamId : UInt16) (f : Frame) {i : ℕ} (hi : i < fragCount f.body) :
    ∃ v, fragment streamId f.frameSeq f.au.keyframe f.body =
      (List.range i).map (datagram streamId f) ++ datagram streamId f i :: v := by
  have hcount : fragCount f.body = i + (fragCount f.body - i - 1 + 1) := by omega
  rw [fragment_eq, hcount, List.range_add, List.range_succ_eq_map, List.map_append]
  exact ⟨_, rfl⟩

/-- A datagram that arrives is heard. -/
theorem heard_of_datagram (haccepts : Accepts extra streamId) {f : Frame}
    (hsmall : f.body.length ≤ 65535 * MAX_PAYLOAD) {i : ℕ} (hi : i < fragCount f.body)
    {p : List (Int64 × List UInt8)} (hp : ∃ b ∈ p, b.2 = datagram streamId f i) :
    ∃ y ∈ p.filterMap (received extra streamId), y.2 = fragmentOf f i := by
  rcases hp with ⟨⟨tMs, dg⟩, hb, rfl⟩
  refine ⟨(tMs, fragmentOf f i), List.mem_filterMap.mpr ⟨_, hb, ?_⟩, rfl⟩
  unfold datagram
  rw [received_fragment f i hsmall hi extra tMs, if_pos haccepts]

/-- The new datagrams, around one of them: those before it are of the access units
    before its own, or come before it in its own. -/
theorem datagram_split
    (hall : ∀ f ∈ first :: more,
      f.sent = fragment streamId f.frameSeq f.au.keyframe f.body) {j : ℕ} {f : Frame} {i : ℕ}
    (hf : (first :: more)[j]? = some f) (hi : i < fragCount f.body) :
    ∃ u v, (first :: more).flatMap Frame.sent = u ++ datagram streamId f i :: v ∧
      ∀ (j' : ℕ) (f' : Frame) (i' : ℕ), (first :: more)[j']? = some f' → i' < fragCount f'.body →
        j' < j ∨ j' = j ∧ i' < i → datagram streamId f' i' ∈ u := by
  rcases List.getElem?_eq_some_iff.mp hf with ⟨hj, hget⟩
  rcases fragment_split streamId f hi with ⟨v, hsplit⟩
  have hsent := hall f (List.mem_of_getElem? hf)
  have hfresh : first :: more = (first :: more).take j ++ f :: (first :: more).drop (j + 1) := by
    rw [← hget, List.getElem_cons_drop, List.take_append_drop]
  refine ⟨((first :: more).take j).flatMap Frame.sent ++ (List.range i).map (datagram streamId f),
    v ++ ((first :: more).drop (j + 1)).flatMap Frame.sent, ?_, fun j' f' i' hf' hi' hbefore => ?_⟩
  · conv_lhs => rw [hfresh]
    rw [List.flatMap_append, List.flatMap_cons, hsent, hsplit]
    simp only [List.append_assoc, List.cons_append]
  · rw [List.mem_append]
    rcases hbefore with hlt | ⟨rfl, hlt⟩
    · -- Of an access unit before.
      left
      have hmem : f' ∈ (first :: more).take j := by
        refine List.mem_of_getElem? (i := j') ?_
        rw [List.getElem?_take_of_lt hlt, hf']
      refine List.mem_flatMap.mpr ⟨f', hmem, ?_⟩
      rw [hall f' (List.mem_of_getElem? hf')]
      exact (mem_fragment _ _ _ _ _).mpr ⟨i', hi', rfl⟩
    · right
      rw [hf, Option.some.injEq] at hf'
      rw [← hf']
      exact List.mem_map_of_mem (List.mem_range.mpr hlt)

variable (h : Numbered streamId 0 0 l) (hfew : l.length ≤ 4294967296)
  (hsmall : ∀ f ∈ l, f.body.length ≤ 65535 * MAX_PAYLOAD)
  (hl : l = old ++ (first :: more) ++ rest)
  (hall : ∀ f ∈ first :: more,
    f.sent = fragment streamId f.frameSeq f.au.keyframe f.body)
  (haccepts : Accepts extra streamId)

include h hfew hl

/-- A new access unit, with its number. -/
theorem new_frame {j : ℕ} {f : Frame} (hf : (first :: more)[j]? = some f) :
    f ∈ l ∧ f.frameSeq.toNat = old.length + j := by
  have hget : l[old.length + j]? = some f := by
    rw [hl, List.append_assoc, List.getElem?_append_right (Nat.le_add_right _ _),
      Nat.add_sub_cancel_left, List.getElem?_append_left (List.getElem?_eq_some_iff.mp hf).1, hf]
  exact ⟨List.mem_of_getElem? hget, h.toNat_of_le hfew _ f hget⟩

/-- An old access unit has a lower number. -/
theorem old_frame {f : Frame} (hf : f ∈ old) : f ∈ l ∧ f.frameSeq.toNat < old.length := by
  rcases List.getElem?_of_mem hf with ⟨k, hk⟩
  have hlt := (List.getElem?_eq_some_iff.mp hk).1
  have hget : l[k]? = some f := by
    rw [hl, List.append_assoc, List.getElem?_append_left hlt, hk]
  refine ⟨List.mem_of_getElem? hget, ?_⟩
  rw [h.toNat_of_le hfew k f hget]
  exact hlt

include hsmall

/-- What is heard of the old access units is below the new ones. -/
theorem heard_old {arrivals : List (Int64 × List UInt8)}
    (harrive : ∀ a ∈ arrivals, received extra streamId a ≠ none → ∃ f ∈ old, a.2 ∈ f.sent)
    (x : Int64 × Fragment) (hx : x ∈ arrivals.filterMap (received extra streamId)) :
    x.2.frameSeq.toNat < old.length := by
  rcases List.mem_filterMap.mp hx with ⟨⟨tMs, dg⟩, ha, hreceived⟩
  have hsome : received extra streamId (tMs, dg) ≠ none := by
    rw [hreceived]
    exact Option.some_ne_none x
  rcases harrive _ ha hsome with ⟨f, hf, hdg⟩
  rcases old_frame h hfew hl hf with ⟨hmem, hlt⟩
  rw [(received_of_sent h f hmem (hsmall f hmem) extra tMs dg hdg x hreceived).1]
  exact hlt

/-- What is heard is old, or is a fragment of a new access unit. -/
theorem heard_new {a : Int64 × List UInt8} {x : Int64 × Fragment}
    (harrive : (∃ f ∈ old, a.2 ∈ f.sent) ∨ a.2 ∈ (first :: more).flatMap Frame.sent)
    (hx : received extra streamId a = some x) :
    x.2.frameSeq.toNat < old.length ∨
      ∃ (j : ℕ) (f : Frame) (i : ℕ), (first :: more)[j]? = some f ∧ i < fragCount f.body ∧
        x.2 = fragmentOf f i ∧ a.2 = datagram streamId f i := by
  rcases harrive with ⟨f, hf, hdg⟩ | hnew
  · left
    rcases old_frame h hfew hl hf with ⟨hmem, hlt⟩
    rw [(received_of_sent h f hmem (hsmall f hmem) extra a.1 a.2 hdg x hx).1]
    exact hlt
  · right
    rcases List.mem_flatMap.mp hnew with ⟨f, hf, hdg⟩
    rcases List.getElem?_of_mem hf with ⟨j, hj⟩
    have hmem := (new_frame h hfew hl hj).1
    rcases fragmentOf_sent h f hmem (hsmall f hmem) extra a.1 a.2 hdg x hx with ⟨i, hi, rfl, heq⟩
    exact ⟨j, f, i, hj, hi, rfl, heq.symm⟩

include hall haccepts

/-- What is heard keeps the order of the run, if the network keeps that of its
    datagrams. -/
theorem inOrder_of_keepsOrder (hkey : first.au.keyframe = true)
    {arrivals : List (Int64 × List UInt8)}
    (harrive : ∀ a ∈ arrivals, received extra streamId a ≠ none →
      (∃ f ∈ old, a.2 ∈ f.sent) ∨ a.2 ∈ (first :: more).flatMap Frame.sent)
    (horder : KeepsOrder ((first :: more).flatMap Frame.sent) arrivals) :
    (runOf old.length first more).InOrder (arrivals.filterMap (received extra streamId)) := by
  -- A number of the run is that of one of its access units.
  have hframe : ∀ n, old.length ≤ n → n ≤ old.length + more.length →
      ∃ j f, n = old.length + j ∧ (first :: more)[j]? = some f ∧ f ∈ l := by
    intro n hlo hhi
    have hlt : n - old.length < (first :: more).length := by
      rw [List.length_cons]
      omega
    have hf := List.getElem?_eq_getElem hlt
    exact ⟨n - old.length, _, by omega, hf, (new_frame h hfew hl hf).1⟩
  have hcount {j : ℕ} {f : Frame} (hf : (first :: more)[j]? = some f) (hmem : f ∈ l) :
      ((runOf old.length first more).count (old.length + j)).toNat = fragCount f.body := by
    rw [(runOf_frame hf).1]
    exact fragmentOf_count f 0 (hsmall f hmem)
  refine ⟨?_, fun n hlo hhi => ?_, fun x hx => ?_, fun n hlo hhi i hi => ?_,
    fun p x s hp hlo n i hn hi hbefore => ?_⟩
  · exact (runOf_frame (k := old.length) (j := 0) rfl).2.trans hkey
  · rcases hframe n hlo hhi with ⟨j, f, rfl, hf, hmem⟩
    rw [hcount hf hmem]
    exact le_max_left _ _
  · rcases List.mem_filterMap.mp hx with ⟨a, ha, hreceived⟩
    rcases heard_new h hfew hsmall hl (harrive a ha (by rw [hreceived]; simp only [ne_eq,
      reduceCtorEq, not_false_eq_true])) hreceived with
      hold | ⟨j, f, i, hf, hi, hfrag, -⟩
    · exact Or.inl hold
    · right
      rcases new_frame h hfew hl hf with ⟨hmem, hnum⟩
      have hj := (List.getElem?_eq_some_iff.mp hf).1
      rw [List.length_cons] at hj
      have hseq : x.2.frameSeq.toNat = old.length + j := by
        rw [hfrag]
        exact hnum
      rw [hseq, hcount hf hmem, (runOf_frame hf).1, (runOf_frame hf).2, hfrag,
        fragmentOf_index f i (hsmall f hmem) hi]
      exact ⟨by unfold runOf; dsimp only; omega, rfl, rfl, hi⟩
  · rcases hframe n hlo hhi with ⟨j, f, rfl, hf, hmem⟩
    rw [hcount hf hmem] at hi
    have hdg : datagram streamId f i ∈ (first :: more).flatMap Frame.sent := by
      refine List.mem_flatMap.mpr ⟨f, List.mem_of_getElem? hf, ?_⟩
      rw [hall f (List.mem_of_getElem? hf)]
      exact (mem_fragment _ _ _ _ _).mpr ⟨i, hi, rfl⟩
    rcases heard_of_datagram haccepts (hsmall f hmem) hi (horder.arrive _ hdg) with ⟨y, hy, hfrag⟩
    rw [← fragmentOf_index f i (hsmall f hmem) hi, ← (new_frame h hfew hl hf).2]
    exact ⟨y, hy, by rw [hfrag]; rfl, by rw [hfrag]⟩
  · -- The fragment is that of a datagram, which had all those before it come first.
    rcases List.filterMap_eq_append_iff.mp hp with ⟨l₁, l₂, rfl, hl₁, hl₂⟩
    rcases List.filterMap_eq_cons_iff.mp hl₂ with ⟨l₃, a, l₄, rfl, hnone, hreceived, -⟩
    have ha : a ∈ l₁ ++ (l₃ ++ a :: l₄) := by
      simp only [List.mem_append, List.mem_cons, true_or, or_true]
    rcases heard_new h hfew hsmall hl (harrive a ha (by rw [hreceived]; simp only [ne_eq,
      reduceCtorEq, not_false_eq_true])) hreceived with
      hold | ⟨j, f, i₀, hf, hi₀, hfrag, hdg⟩
    · exact absurd hold (Nat.not_lt.mpr hlo)
    · rcases new_frame h hfew hl hf with ⟨hmem, hnum⟩
      have hseq : x.2.frameSeq.toNat = old.length + j := by
        rw [hfrag]
        exact hnum
      have hindex : x.2.fragIndex.toNat = i₀ := by
        rw [hfrag]
        exact fragmentOf_index f i₀ (hsmall f hmem) hi₀
      have hj := (List.getElem?_eq_some_iff.mp hf).1
      rw [List.length_cons] at hj
      rw [hseq, hindex] at hbefore
      rcases hframe n hn (by omega) with ⟨j', f', rfl, hf', hmem'⟩
      rw [hcount hf' hmem'] at hi
      rcases datagram_split hall hf hi₀ with ⟨u, v, hsplit, hu⟩
      have hearlier := hu j' f' i hf' hi (by omega)
      rw [← hdg] at hsplit
      have hsplit' : l₁ ++ (l₃ ++ a :: l₄) = (l₁ ++ l₃) ++ a :: l₄ := (List.append_assoc ..).symm
      rcases heard_of_datagram haccepts (hsmall f' hmem') hi
        (horder.ordered _ a l₄ hsplit' u v hsplit _ hearlier) with ⟨y, hy, hfrag'⟩
      have hsilent : l₃.filterMap (received extra streamId) = [] :=
        List.filterMap_eq_nil_iff.mpr hnone
      rw [List.filterMap_append, hl₁, hsilent, List.append_nil] at hy
      rw [← fragmentOf_index f' i (hsmall f' hmem') hi, ← (new_frame h hfew hl hf').2]
      exact ⟨y, hy, by rw [hfrag']; rfl, by rw [hfrag']⟩

/-- In a log whose new part starts with a keyframe, the new access units are
    delivered in order, whatever the receiver has seen of the old ones, and from
    the keyframe on nothing but deliveries follows. -/
theorem restored_of_numbered (hkey : first.au.keyframe = true)
    {seen later : List (Int64 × List UInt8)}
    (hseen : ∀ a ∈ seen, received extra streamId a ≠ none → ∃ f ∈ old, a.2 ∈ f.sent)
    (hlater : ∀ a ∈ later, received extra streamId a ≠ none →
      (∃ f ∈ old, a.2 ∈ f.sent) ∨ a.2 ∈ (first :: more).flatMap Frame.sent)
    (horder : KeepsOrder ((first :: more).flatMap Frame.sent) later) :
    Reassembler.deliveredFrom old.length
        (deliveries (receive extra streamId (seen ++ later)).events) =
      List.range' old.length (first :: more).length ∧
    ∀ p s, later = p ++ s → (∀ dg ∈ first.sent, ∃ b ∈ p, b.2 = dg) →
      ∃ events, (receive extra streamId (seen ++ later)).events =
          (receive extra streamId (seen ++ p)).events ++ events ∧
        ∀ e ∈ events, ∃ tMs seq keyframe, e = .Deliver tMs seq keyframe := by
  have hrestored := Reassembler.restored (runOf old.length first more)
    (seen.filterMap (received extra streamId)) (later.filterMap (received extra streamId))
    (heard_old h hfew hsmall hl hseen)
    (inOrder_of_keepsOrder h hfew hsmall hl hall haccepts hkey hlater horder)
  have hreceive (arrivals : List (Int64 × List UInt8)) :
      receive extra streamId (seen ++ arrivals) =
        (Reassembler.new.pushAll (seen.filterMap (received extra streamId))).pushAll
          (arrivals.filterMap (received extra streamId)) := by
    rw [receive, List.filterMap_append, Reassembler.pushAll_append]
  refine ⟨?_, fun p s hp hfirst => ?_⟩
  · rw [hreceive]
    exact hrestored.1
  · rw [hreceive, hreceive]
    refine hrestored.2 _ (s.filterMap (received extra streamId))
      (by rw [hp, List.filterMap_append]) (fun i hi => ?_)
    -- The keyframe is whole, as all its datagrams have come.
    have hf : (first :: more)[0]? = some first := rfl
    rcases new_frame h hfew hl hf with ⟨hmem, hnum⟩
    have hcount : ((runOf old.length first more).count old.length).toNat =
        fragCount first.body := by
      have hcut := (runOf_frame (k := old.length) hf).1
      rw [Nat.add_zero] at hcut
      rw [hcut]
      exact fragmentOf_count first 0 (hsmall first hmem)
    have hi : i < fragCount first.body := hcount ▸ hi
    have hdg : datagram streamId first i ∈ first.sent := by
      rw [hall first List.mem_cons_self]
      exact (mem_fragment _ _ _ _ _).mpr ⟨i, hi, rfl⟩
    rcases heard_of_datagram haccepts (hsmall first hmem) hi (hfirst _ hdg) with ⟨y, hy, hfrag⟩
    rw [← fragmentOf_index first i (hsmall first hmem) hi]
    exact ⟨y, hy, by rw [hfrag]; exact hnum, by rw [hfrag]⟩

end Receiver

/-- A network that loses and adds nothing, and keeps the order. -/
theorem keepsOrder_sent {sent : List (List UInt8)} (hnodup : sent.Nodup) (tMs : Int64) :
    KeepsOrder sent (sent.map fun dg => (tMs, dg)) := by
  refine ⟨fun dg hdg => ⟨_, List.mem_map_of_mem hdg, rfl⟩, fun p a s hp u v hu dg hdg => ?_⟩
  have hsent : sent = p.map Prod.snd ++ a.2 :: s.map Prod.snd := by
    have hback := congrArg (List.map Prod.snd) hp
    simpa only [List.map_map, Function.comp_def, List.map_id_fun', id_eq, List.map_append,
      List.map_cons] using hback
  -- The datagram stands only once in what was sent.
  rw [hsent] at hu hnodup
  rcases List.append_eq_append_iff.mp hu with ⟨w, rfl, hw⟩ | ⟨w, hw, -⟩
  · cases w with
    | nil =>
        rw [List.append_nil] at hdg
        exact List.mem_map.mp hdg
    | cons b w =>
        rw [List.cons_append, List.cons.injEq] at hw
        have hagain : a.2 ∈ s.map Prod.snd := hw.2 ▸ List.mem_append_right _ List.mem_cons_self
        have hlast := (List.nodup_append.mp hnodup).2.1
        exact absurd hagain (List.nodup_cons.mp hlast).1
  · exact List.mem_map.mp (hw ▸ List.mem_append_left _ hdg)

end Media

namespace System

open Session Conn Media Datagram Reassembly

section Restored

variable {E P : Type*} (env : Env) (cfg : HostCfg) (dropPercent : UInt32)
  {world : ℕ → Backend E P}

/-- The first frame after a turn that takes a request is a keyframe. -/
theorem keyframe_after (hforced : ForcedKey world) (hfirst : FirstKey world)
    {sessionId : Vector UInt8 16} {before after : List (Action P)} {i : ℕ} {t : Tick P}
    {σ₁ σ : State E P} {u v : List Event} {p : Pipeline E P} {m : Thread E P}
    (hbefore : Machine.exec (step env cfg dropPercent world) (start cfg sessionId) before =
      some (σ₁, u))
    (hafter : Machine.exec (step env cfg dropPercent world) σ₁ (.turn i t :: after) =
      some (σ, v))
    (hp : σ₁.pipelines[i]? = some p) (hphase : p.phase = .running m) (hdrains : Drains m t)
    (hkept : Drops (world σ₁.steps) m t → ∀ g ∈ framesOf i u, g.encoder ≠ m.opened) (f : Frame)
    (hf : (framesOf i v).head? = some f) : f.au.keyframe = true := by
  have hsourced := (tracked_exec env cfg dropPercent world hbefore i).2 p hp
  rw [hphase] at hsourced
  rcases Machine.exec_cons.mp hafter with ⟨σ₂, events, late, hturn, hrest, rfl⟩
  rcases (step_stepped env cfg dropPercent world hturn).drains hforced hp hphase hsourced hdrains
    hkept with ⟨hkeys, howes⟩
  -- From the draining turn on, the first frame is a keyframe or is still to come.
  have hserved := Machine.exec_keeps (ServedFirst world i)
    (fun σ trace a σ' events h hstep =>
      h.step cfg dropPercent hfirst (step_stepped env cfg dropPercent world hstep))
    after (served_of_frames hkeys howes) hrest
  rcases hserved with ⟨hnone, -⟩ | ⟨g, hg, hkey⟩
  · rw [hnone] at hf
    cases hf
  · rw [hg, Option.some.injEq] at hf
    exact hf ▸ hkey

/-- The way of a request. In every run, whatever the client has received before a
    media thread takes its request for an IDR: when the access units that follow
    arrive, in order and with any datagrams of before and of other streams between
    them, they are delivered one after the other, and once the first of them has
    arrived the client's reassembler asks for nothing any more. -/
theorem stream_restored (hforced : ForcedKey world) (hfirst : FirstKey world)
    {sessionId : Vector UInt8 16} {before after : List (Action P)} {i : ℕ} {t : Tick P}
    {σ₁ σ : State E P} {u v : List Event} {p : Pipeline E P} {m : Thread E P}
    (hbefore : Machine.exec (step env cfg dropPercent world) (start cfg sessionId) before =
      some (σ₁, u))
    (hafter : Machine.exec (step env cfg dropPercent world) σ₁ (.turn i t :: after) =
      some (σ, v))
    (hp : σ₁.pipelines[i]? = some p) (hphase : p.phase = .running m) (hdrains : Drains m t)
    (hkept : Drops (world σ₁.steps) m t → ∀ g ∈ framesOf i u, g.encoder ≠ m.opened)
    {handle : MediaHandle} (hi : σ.driver.media[i]? = some handle)
    (hdistinct : (cfg.streams.map StreamSpec.streamId).Nodup)
    (hsmall : ∀ j f, .frame j f ∈ u ++ v → f.body.length ≤ 65535 * MAX_PAYLOAD)
    (hfew : (framesOf i (u ++ v)).length ≤ 4294967296)
    {first : Frame} {more rest : List Frame} (hnew : framesOf i v = first :: more ++ rest)
    (hall : ∀ f ∈ first :: more,
      f.sent = fragment handle.streamId f.frameSeq f.au.keyframe f.body)
    {extra : List UInt16} (haccepts : Accepts extra handle.streamId)
    {seen later : List (Int64 × List UInt8)} (hseen : ∀ a ∈ seen, ∃ j, a.2 ∈ datagramsOf j u)
    (hlater : ∀ a ∈ later, a.2 ∈ (first :: more).flatMap Frame.sent ∨ a.2 ∈ datagramsOf i u ∨
      ∃ j, j ≠ i ∧ a.2 ∈ datagramsOf j (u ++ v))
    (horder : KeepsOrder ((first :: more).flatMap Frame.sent) later) :
    Reassembler.deliveredFrom (framesOf i u).length
        (deliveries (Media.receive extra handle.streamId (seen ++ later)).events) =
      List.range' (framesOf i u).length (first :: more).length ∧
    ∀ p s, later = p ++ s → (∀ dg ∈ first.sent, ∃ b ∈ p, b.2 = dg) →
      ∃ events, (Media.receive extra handle.streamId (seen ++ later)).events =
          (Media.receive extra handle.streamId (seen ++ p)).events ++ events ∧
        ∀ e ∈ events, ∃ tMs seq keyframe, e = .Deliver tMs seq keyframe := by
  have hrun := Machine.exec_append.mpr ⟨σ₁, u, v, hbefore, hafter, rfl⟩
  have hnumbered := logged_exec cfg dropPercent world env hrun hi
  have hkey : first.au.keyframe = true := by
    refine keyframe_after env cfg dropPercent hforced hfirst hbefore hafter hp hphase hdrains hkept
      first ?_
    rw [hnew]
    rfl
  have hother {a : Int64 × List UInt8} {j : ℕ} (hij : j ≠ i) (hdg : a.2 ∈ datagramsOf j (u ++ v)) :
      received extra handle.streamId a = none :=
    received_of_other env cfg dropPercent world hrun hdistinct hsmall hi extra hij hdg
  have hsplit : framesOf i (u ++ v) = framesOf i u ++ (first :: more) ++ rest := by
    rw [framesOf_append, hnew, List.append_assoc]
  refine restored_of_numbered hnumbered hfew (fun f hf => hsmall i f (mem_framesOf.mp hf)) hsplit
    hall haccepts hkey (fun a ha htaken => ?_) (fun a ha htaken => ?_) horder
  · rcases hseen a ha with ⟨j, hdg⟩
    by_cases hij : j = i
    · exact List.mem_flatMap.mp (hij ▸ hdg)
    · -- A datagram of another stream is not taken.
      refine absurd (hother hij ?_) htaken
      rw [datagramsOf, framesOf_append, List.flatMap_append]
      exact List.mem_append_left _ hdg
  · rcases hlater a ha with hfresh | hold | ⟨j, hij, hdg⟩
    · exact Or.inr hfresh
    · exact Or.inl (List.mem_flatMap.mp hold)
    · exact absurd (hother hij hdg) htaken

/-- The first access unit is lost. The two after the request are delivered. -/
theorem stream_restored_third : ∃ σ₁ u σ v f g,
    Machine.exec (step sampleEnv oneStream 0 fun _ => sampleBackend)
      (start oneStream (Vector.replicate 16 0)) (requestActions 2) = some (σ₁, u) ∧
    Machine.exec (step sampleEnv oneStream 0 fun _ => sampleBackend) σ₁
      [.turn 0 requestTick, .turn 0 sampleTick] = some (σ, v) ∧
    framesOf 0 v = [f, g] ∧
    Reassembler.deliveredFrom 1 (deliveries (Media.receive [] 0
      ((f.sent ++ g.sent).map fun dg => (0, dg))).events) = [1, 2] := by
  have hrun : ∃ σ₁ u σ v f g p m handle,
      Machine.exec (step sampleEnv oneStream 0 fun _ => sampleBackend)
        (start oneStream (Vector.replicate 16 0)) (requestActions 2) = some (σ₁, u) ∧
      Machine.exec (step sampleEnv oneStream 0 fun _ => sampleBackend) σ₁
        [.turn 0 requestTick, .turn 0 sampleTick] = some (σ, v) ∧
      framesOf 0 v = [f, g] ∧ σ₁.pipelines[0]? = some p ∧ p.phase = .running m ∧
      m.idrWaiting = 0 ∧ m.encoder = 2 ∧ σ.driver.media[0]? = some handle ∧
      handle.streamId = 0 ∧ (framesOf 0 u).length = 1 ∧ (framesOf 0 (u ++ v)).length = 3 ∧
      (u ++ v).all (Event.hasLength 9) = true ∧
      f.sent = fragment 0 f.frameSeq f.au.keyframe f.body ∧
      g.sent = fragment 0 g.frameSeq g.au.keyframe g.body ∧ (f.sent ++ g.sent).Nodup :=
    ⟨_, _, _, _, _, _, _, _, _, rfl, rfl, rfl, rfl, rfl, rfl, rfl, rfl, rfl, rfl, rfl, rfl, rfl,
      rfl, by decide⟩
  rcases hrun with ⟨σ₁, u, σ, v, f, g, p, m, handle, hbefore, hafter, hframes, hp, hphase, hwaiting,
    hencoder, hi, hid, hold, hcount, hshort, hf, hg, hnodup⟩
  refine ⟨σ₁, u, σ, v, f, g, hbefore, hafter, hframes, ?_⟩
  have hsmall : ∀ j x, Event.frame j x ∈ u ++ v → x.body.length ≤ 65535 * MAX_PAYLOAD := by
    intro j x hx
    rw [length_of_hasLength hshort hx]
    decide
  have hdrains : Drains m requestTick := by
    refine ⟨rfl, rfl, ?_⟩
    rw [hwaiting]
    decide
  have hsent : [f, g].flatMap Frame.sent = f.sent ++ g.sent := by
    simp only [List.flatMap_cons, List.flatMap_nil, List.append_nil]
  have hall : ∀ x ∈ [f, g],
      x.sent = fragment handle.streamId x.frameSeq x.au.keyframe x.body := by
    simp only [List.mem_cons, List.not_mem_nil, or_false, hid, forall_eq_or_imp, ← hf, forall_eq, ←
      hg, and_self]
  have hnew : framesOf 0 v = f :: [g] ++ [] := hframes
  have haccepts : Accepts [] handle.streamId := Or.inl (hid ▸ rfl)
  have hseen : ∀ a ∈ ([] : List (Int64 × List UInt8)), ∃ j, a.2 ∈ datagramsOf j u :=
    fun a ha => absurd ha List.not_mem_nil
  have horder : KeepsOrder ([f, g].flatMap Frame.sent)
      ((f.sent ++ g.sent).map fun dg => (0, dg)) := hsent ▸ keepsOrder_sent hnodup 0
  have hrestored := stream_restored sampleEnv oneStream 0 sampleBackend_keys.1 sampleBackend_keys.2
    hbefore hafter hp hphase hdrains (fun hdrops => ?_) hi (by decide) hsmall (by omega) hnew hall
    haccepts hseen (fun a ha => ?_) horder
  · rw [hid, hold] at hrestored
    exact hrestored.1
  · -- The encoder drops nothing but its second picture.
    rcases hdrops with ⟨planes, e', -, hencode⟩
    rw [hencoder] at hencode
    cases hencode
  · rcases List.mem_map.mp ha with ⟨dg, hdg, rfl⟩
    exact Or.inl (hsent ▸ hdg)

end Restored

end System

end LoomHost
