import LoomHost.Theory.Media
import LoomHost.Theory.Reassembly.Whole
import LoomHost.Theory.System.Advertised

/-!
# The Numbers in the Headers

A header has 32 bits for the number of an access unit and 16 bits each for the
index of a fragment and for their number. The loop counts without a check, and
`fragment` casts without one. The numbers are the true ones as long as they fit,
which is a condition on what the encoders return: not too many access units, and
none too long.

The receiver takes the numbers at their word. It drops a fragment whose frame is
numbered at or below one it has completed, and it completes a frame when it has
as many indices as the count says. With true numbers both are right. With a count
that is cut to 16 bits, a few fragments are the whole frame.

What arrives at the receiver is recorded with the position in the log of the
access unit it is of, which is what its number should say.

## Main definitions

* `Arrival`, `Sent`: What arrives has been sent.
* `Truthful`: The numbers in the headers, and what a receiver makes of them.
* `InRange`: The numbers fit.

## Theorems

* `heard_fragment`: What a receiver hears are fragments of access units.
* `fresh_of_in_range`: A new access unit is not stale.
* `whole_of_in_range`: An access unit is completed by all of its datagrams.
* `truthful_iff`: The numbers of a run are true exactly if they fit.
* `subset_delivered`: A frame of 65538 fragments, delivered when two have come.
-/

namespace LoomHost

namespace Media

open Session Reassembly Datagram

/-- A datagram at the receiver: the position in the log of its access unit, its
    time, and its bytes. -/
abbrev Arrival := ℕ × Int64 × List UInt8

/-- What arrives is of an access unit of the log, any number of times and in any
    order. -/
def Sent (l : List Frame) (arrivals : List Arrival) : Prop :=
  ∀ a ∈ arrivals, ∃ f, l[a.1]? = some f ∧ a.2.2 ∈ f.sent

/-- The numbers in the headers of a log are the true ones, and no receiver is
    misled by them. -/
structure Truthful (streamId : UInt16) (l : List Frame) : Prop where
  /-- The number of an access unit is one more than that of the one before. -/
  counts : ∀ (k : ℕ) (f g : Frame), l[k]? = some f → l[k + 1]? = some g →
    g.frameSeq.toNat = f.frameSeq.toNat + 1
  /-- No number is used twice. -/
  once : ∀ (j k : ℕ) (f g : Frame), l[j]? = some f → l[k]? = some g →
    f.frameSeq = g.frameSeq → j = k
  /-- What is sent are fragments. -/
  cut : ∀ f ∈ l, ∀ dg ∈ f.sent, dg ∈ fragment streamId f.frameSeq f.au.keyframe f.body
  /-- The header of a fragment says the number of its access unit, its own
      position and the number of fragments. -/
  headers : ∀ f ∈ l, ∀ i dg,
    (fragment streamId f.frameSeq f.au.keyframe f.body)[i]? = some dg →
      beField dg 4 4 = f.frameSeq.toNat ∧ beField dg 8 2 = i ∧
        beField dg 10 2 = (fragment streamId f.frameSeq f.au.keyframe f.body).length
  /-- A datagram of an access unit that comes after all of which there have been
      datagrams is not stale. -/
  fresh : ∀ extra before a x, Sent l (before ++ [a]) → (∀ b ∈ before, b.1 < a.1) →
    received extra streamId a.2 = some x →
      (receive extra streamId (before.map Prod.snd)).admission x.2 ≠ some .stale
  /-- When an access unit is completed, delivered or discarded at a gap, all of
      its datagrams have come. -/
  whole : ∀ extra before a x f, Sent l (before ++ [a]) → l[a.1]? = some f →
    received extra streamId a.2 = some x →
    (receive extra streamId (before.map Prod.snd)).Completes x.1 x.2 →
      ∀ dg ∈ fragment streamId f.frameSeq f.au.keyframe f.body,
        ∃ b ∈ before ++ [a], b.1 = a.1 ∧ b.2.2 = dg

/-- What the encoders return can be numbered: no more access units than there are
    numbers, and none of more than 65535 fragments. -/
def InRange (aus : List AccessUnit) : Prop :=
  aus.length ≤ 4294967296 ∧ ∀ au ∈ aus, 8 + au.data.length ≤ 65535 * MAX_PAYLOAD

/-- A state that holds nothing from `k` on does not find a fragment of frame `k`
    stale. -/
theorem not_stale_of_below (r : Reassembler) (frag : Fragment)
    (hbelow : Reassembler.Below frag.frameSeq.toNat r) : r.admission frag ≠ some .stale := by
  intro hstale
  cases r.admission_spec frag .stale hstale with
  | old hle => exact absurd hbelow.newest (not_lt_of_ge hle)
  | below hlt hmem hfull hnewer =>
      -- A full window has an oldest frame, and it is not newer.
      rcases Option.isSome_iff_exists.mp (r.head?_keys_isSome hfull) with ⟨oldest, hold⟩
      have hin := (r.head?_keys_le oldest hold).1
      exact absurd (hnewer oldest hin) (not_lt_of_ge (le_of_lt (hbelow.keys oldest hin)))

section Receiver

variable {streamId : UInt16} {l : List Frame} (h : Numbered streamId 0 0 l)
  (hfew : l.length ≤ 4294967296) (hsmall : ∀ f ∈ l, f.body.length ≤ 65535 * MAX_PAYLOAD)
  (extra : List UInt16)

include h hsmall

/-- What a receiver hears are fragments of the access units its datagrams are of. -/
theorem heard_fragment {arrivals : List Arrival} (hsent : Sent l arrivals) (x : Int64 × Fragment)
    (hx : x ∈ (arrivals.map Prod.snd).filterMap (received extra streamId)) :
    ∃ b ∈ arrivals, ∃ f i, l[b.1]? = some f ∧ i < fragCount f.body ∧ x.2 = fragmentOf f i ∧
      (header streamId f.frameSeq f.au.keyframe f.body i).encode (chunk f.body i) = b.2.2 := by
  rcases List.mem_filterMap.mp hx with ⟨y, hy, hx⟩
  rcases List.mem_map.mp hy with ⟨b, hb, rfl⟩
  rcases hsent b hb with ⟨f, hf, hdg⟩
  have hmem := List.mem_of_getElem? hf
  rcases fragmentOf_sent h f hmem (hsmall f hmem) extra b.2.1 b.2.2 hdg x hx with
    ⟨i, hi, rfl, heq⟩
  exact ⟨b, hb, f, i, hf, hi, rfl, heq⟩

include hfew

theorem fresh_of_in_range (before : List Arrival) (a : Arrival) (x : Int64 × Fragment)
    (hsent : Sent l (before ++ [a])) (hnew : ∀ b ∈ before, b.1 < a.1)
    (hx : received extra streamId a.2 = some x) :
    (receive extra streamId (before.map Prod.snd)).admission x.2 ≠ some .stale := by
  have hbefore : Sent l before := fun b hb => hsent b (List.mem_append_left _ hb)
  rcases hsent a (List.mem_append_right _ List.mem_cons_self) with ⟨f, hf, hdg⟩
  have hmem := List.mem_of_getElem? hf
  rcases fragmentOf_sent h f hmem (hsmall f hmem) extra a.2.1 a.2.2 hdg x hx with ⟨i, -, rfl, -⟩
  refine not_stale_of_below _ _ (Reassembler.below_pushAll _ _ _ (fun y hy => ?_)
    (Reassembler.below_new _))
  -- The numbers are the positions in the log.
  rcases heard_fragment h hsmall extra hbefore y hy with ⟨b, hb, g, j, hg, -, hyg, -⟩
  rw [hyg]
  have hbelow := hnew b hb
  rw [← h.toNat_of_le hfew b.1 g hg, ← h.toNat_of_le hfew a.1 f hf] at hbelow
  exact hbelow

/-- A fragment that says it is of the access unit at `k` is. -/
theorem fragment_at (k : ℕ) (f : Frame) (hf : l[k]? = some f) {arrivals : List Arrival}
    (hsent : Sent l arrivals) (x : Int64 × Fragment)
    (hx : x ∈ (arrivals.map Prod.snd).filterMap (received extra streamId))
    (hseq : x.2.frameSeq = f.frameSeq) :
    ∃ b ∈ arrivals, b.1 = k ∧ ∃ i, i < fragCount f.body ∧ x.2 = fragmentOf f i ∧
      (header streamId f.frameSeq f.au.keyframe f.body i).encode (chunk f.body i) = b.2.2 := by
  rcases heard_fragment h hsmall extra hsent x hx with ⟨b, hb, g, i, hg, hi, hxg, hdg⟩
  have hsame : g.frameSeq = f.frameSeq := by
    rw [← hseq, hxg]
    rfl
  have hpos := congrArg UInt32.toNat hsame
  rw [h.toNat_of_le hfew b.1 g hg, h.toNat_of_le hfew k f hf] at hpos
  rw [hpos, hf, Option.some.injEq] at hg
  subst hg
  exact ⟨b, hb, hpos, i, hi, hxg, hdg⟩

/-- So its count is the true one, and its index is in range. -/
theorem numbers_at (k : ℕ) (f : Frame) (hf : l[k]? = some f) {arrivals : List Arrival}
    (hsent : Sent l arrivals) (x : Int64 × Fragment)
    (hx : x ∈ (arrivals.map Prod.snd).filterMap (received extra streamId))
    (hseq : x.2.frameSeq = f.frameSeq) :
    x.2.fragCount.toNat = fragCount f.body ∧ x.2.fragIndex.toNat < fragCount f.body := by
  have hbody := hsmall f (List.mem_of_getElem? hf)
  rcases fragment_at h hfew hsmall extra k f hf hsent x hx hseq with ⟨-, -, -, i, hi, hfrag, -⟩
  rw [hfrag, fragmentOf_count f i hbody, fragmentOf_index f i hbody hi]
  exact ⟨rfl, hi⟩

theorem whole_of_in_range (before : List Arrival) (a : Arrival) (x : Int64 × Fragment)
    (f : Frame) (hsent : Sent l (before ++ [a]))
    (hf : l[a.1]? = some f) (hx : received extra streamId a.2 = some x)
    (hcompletes : (receive extra streamId (before.map Prod.snd)).Completes x.1 x.2) :
    ∀ dg ∈ fragment streamId f.frameSeq f.au.keyframe f.body,
      ∃ b ∈ before ++ [a], b.1 = a.1 ∧ b.2.2 = dg := by
  intro dg hdg
  rcases (mem_fragment streamId f.frameSeq f.au.keyframe f.body dg).mp hdg with ⟨i, hi, rfl⟩
  have hbody := hsmall f (List.mem_of_getElem? hf)
  have htrace : ((before ++ [a]).map Prod.snd).filterMap (received extra streamId) =
      (before.map Prod.snd).filterMap (received extra streamId) ++ [x] := by
    rw [List.map_append, List.filterMap_append, List.map_singleton,
      List.filterMap_cons_some hx, List.filterMap_nil]
  -- Every fragment with the number of the access unit is one of its own.
  have hown := fragment_at h hfew hsmall extra a.1 f hf hsent
  have hnumbers := numbers_at h hfew hsmall extra a.1 f hf hsent
  rw [htrace] at hown hnumbers
  have hseq : x.2.frameSeq = f.frameSeq := by
    rcases hsent a (List.mem_append_right _ List.mem_cons_self) with ⟨g, hg, hdg⟩
    rw [hf, Option.some.injEq] at hg
    subst hg
    exact (received_of_sent h f (List.mem_of_getElem? hf) hbody extra a.2.1 a.2.2 hdg x hx).1
  rcases Reassembler.opened_of_completes _ x.1 x.2 hcompletes with ⟨first, hopens, hcount⟩
  -- The fragment that opens the access unit has its count from the sender.
  have hneed : first.fragCount.toNat = fragCount f.body := by
    rcases (hopens first).mpr rfl with ⟨p, tMs, q, htr, -, hfirst⟩
    have hin : (tMs, first) ∈
        (before.map Prod.snd).filterMap (received extra streamId) ++ [x] :=
      htr ▸ List.mem_append_right p List.mem_cons_self
    exact (hnumbers (tMs, first) hin (hfirst.trans hseq)).1
  have hrange : ∀ y ∈ (before.map Prod.snd).filterMap (received extra streamId) ++ [x],
      y.2.frameSeq = x.2.frameSeq → y.2.fragIndex < first.fragCount := by
    intro y hy hyseq
    rw [UInt16.lt_iff_toNat_lt, hneed]
    exact (hnumbers y hy (hyseq.trans hseq)).2
  -- Index `i` is among those received, and its datagram is the one at position `i`.
  have hindex := fragmentOf_index f i hbody hi
  have hreceived := (Reassembler.whole_of_range _ _ first hcount hrange
    (fragmentOf f i).fragIndex).mpr (UInt16.lt_iff_toNat_lt.mpr (by omega))
  rcases (mem_indices _ _ _).mp hreceived with ⟨y, hy, hyseq, hyidx⟩
  rcases hown y hy ((UInt32.toNat_inj.mp hyseq).trans hseq) with ⟨b, hb, hbk, j, hj, hfrag, hdgj⟩
  refine ⟨b, hb, hbk, ?_⟩
  have hsame : j = i := by
    rw [← fragmentOf_index f j hbody hj, ← hfrag, hyidx, hindex]
  rw [← hdgj, hsame]

end Receiver

section Run

variable {streamId : UInt16} {l : List Frame}

/-- The header of a fragment of a body that is not too long. -/
theorem header_of_in_range (f : Frame) (hbody : f.body.length ≤ 65535 * MAX_PAYLOAD) (i : ℕ)
    (dg : List UInt8)
    (hdg : (fragment streamId f.frameSeq f.au.keyframe f.body)[i]? = some dg) :
    beField dg 4 4 = f.frameSeq.toNat ∧ beField dg 8 2 = i ∧
      beField dg 10 2 = (fragment streamId f.frameSeq f.au.keyframe f.body).length := by
  have hi := (List.getElem?_eq_some_iff.mp hdg).1
  rw [fragment_eq, List.length_map, List.length_range] at hi
  rw [fragment_eq, List.getElem?_map, List.getElem?_range hi, Option.map_some,
    Option.some.injEq] at hdg
  rw [← hdg, frameSeq_encode, fragIndex_encode, fragCount_encode, fragment_eq, List.length_map,
    List.length_range, header_index streamId f.frameSeq f.au.keyframe f.body i hbody hi,
    header_count streamId f.frameSeq f.au.keyframe f.body i hbody]
  exact ⟨rfl, rfl, rfl⟩

theorem Numbered.truthful (h : Numbered streamId 0 0 l) (hfew : l.length ≤ 4294967296)
    (hsmall : ∀ f ∈ l, f.body.length ≤ 65535 * MAX_PAYLOAD) : Truthful streamId l := by
  refine ⟨fun k f g hf hg => ?_, fun j k f g hf hg hsame => ?_, h.fragments,
    fun f hf i dg hdg => header_of_in_range f (hsmall f hf) i dg hdg,
    fun extra before a x => fresh_of_in_range h hfew hsmall extra before a x,
    fun extra before a x f => whole_of_in_range h hfew hsmall extra before a x f⟩
  · rw [h.toNat_of_le hfew k f hf, h.toNat_of_le hfew (k + 1) g hg]
  · rw [← h.toNat_of_le hfew j f hf, hsame, h.toNat_of_le hfew k g hg]

/-- Number 2^32 would be 0 again. -/
theorem Numbered.few_of_once (h : Numbered streamId 0 0 l)
    (honce : ∀ (j k : ℕ) (f g : Frame), l[j]? = some f → l[k]? = some g →
      f.frameSeq = g.frameSeq → j = k) : l.length ≤ 4294967296 := by
  by_contra hmany
  have hfirst := List.getElem?_eq_getElem (l := l) (i := 0) (by omega)
  have hlast := List.getElem?_eq_getElem (l := l) (i := 4294967296) (by omega)
  have hsame := (h.numbers _ _ hfirst).trans (h.numbers _ _ hlast).symm
  exact absurd (honce _ _ _ _ hfirst hlast hsame) (by decide)

/-- A count of more than 16 bits is not what the header says. -/
theorem small_of_headers (f : Frame)
    (hheaders : ∀ (i : ℕ) (dg : List UInt8),
      (fragment streamId f.frameSeq f.au.keyframe f.body)[i]? = some dg →
        beField dg 10 2 = (fragment streamId f.frameSeq f.au.keyframe f.body).length) :
    f.body.length ≤ 65535 * MAX_PAYLOAD := by
  have hpos : 0 < fragCount f.body := Nat.lt_of_lt_of_le Nat.zero_lt_one (le_max_left _ _)
  have hget : (fragment streamId f.frameSeq f.au.keyframe f.body)[0]? =
      some ((header streamId f.frameSeq f.au.keyframe f.body 0).encode (chunk f.body 0)) := by
    rw [fragment_eq, List.getElem?_map, List.getElem?_range hpos, Option.map_some]
  have hcount := hheaders 0 _ hget
  rw [fragCount_encode, fragment_eq, List.length_map, List.length_range] at hcount
  have hlt := (header streamId f.frameSeq f.au.keyframe f.body 0).fragCount.toNat_lt
  refine (ceil_le_iff f.body 65535).mp ?_
  rw [hcount, fragCount] at hlt
  omega

variable {E P : Type*} (backend : Backend E P)

/-- What a loop logs, one of its ticks has returned. -/
theorem mem_frames (f : Frame) (ticks : List (Tick P)) : ∀ m : Thread E P,
    f ∈ frames backend streamId m ticks →
      ∃ (m' : Thread E P) (t : Tick P), (tick backend streamId m' t).2 = some f := by
  induction ticks with
  | nil => exact fun m hf => absurd hf List.not_mem_nil
  | cons t ticks ih =>
      intro m hf
      rw [frames] at hf
      rcases htick : tick backend streamId m t with ⟨_ | m', f'⟩
      · rw [htick] at hf
        exact ⟨m, t, by rw [htick]; exact Option.mem_toList.mp hf⟩
      · rw [htick] at hf
        rcases List.mem_append.mp hf with hf | hf
        · exact ⟨m, t, by rw [htick]; exact Option.mem_toList.mp hf⟩
        · exact ih m' hf

/-- A frame body is eight bytes longer than its access unit. -/
theorem body_of_run (streamId : UInt16) (params : MediaParams) (dropPercent : UInt32)
    (ticks : List (Tick P)) (f : Frame) (hf : f ∈ run backend streamId params dropPercent ticks) :
    f.body.length = 8 + f.au.data.length := by
  unfold run at hf
  split at hf
  · rcases mem_frames backend f ticks _ hf with ⟨m, t, htick⟩
    exact (System.cut_of_tick backend streamId m t f htick).body
  · exact absurd hf List.not_mem_nil

/-- In every run of a media loop, the numbers in the headers are the true ones,
    and no receiver is misled by them, exactly if what the encoders have returned
    can be numbered. -/
theorem truthful_iff (streamId : UInt16) (params : MediaParams) (dropPercent : UInt32)
    (ticks : List (Tick P)) :
    Truthful streamId (run backend streamId params dropPercent ticks) ↔
      InRange ((run backend streamId params dropPercent ticks).map Frame.au) := by
  have hnumbered := numbered_run backend streamId params dropPercent ticks
  have hbody := body_of_run backend streamId params dropPercent ticks
  -- If no number is used twice there are at most 2^32, and a header that says the number of
  -- fragments bounds it.
  constructor
  · intro htrue
    refine ⟨?_, fun au hau => ?_⟩
    · rw [List.length_map]
      exact hnumbered.few_of_once htrue.once
    · rcases List.mem_map.mp hau with ⟨f, hf, rfl⟩
      rw [← hbody f hf]
      exact small_of_headers f fun i dg hdg => (htrue.headers f hf i dg hdg).2.2
  · rintro ⟨hfew, hsmall⟩
    rw [List.length_map] at hfew
    refine hnumbered.truthful hfew fun f hf => ?_
    rw [hbody f hf]
    exact hsmall f.au (List.mem_map_of_mem hf)

end Run

section Truncated

/-- The log of one tick. -/
theorem runOf_one (data : List UInt8) :
    run (System.constantEncoder data) 0 {} 0 [sampleTick] =
      [{ encoder := 1
         frameSeq := 0
         au := { keyframe := true, data := data }
         body := BigEndian.toBE 8 7 ++ data
         sent := fragment 0 0 true (BigEndian.toBE 8 7 ++ data) }] := by
  have hsent := System.sendDatagrams_all (DropInjector.new 0) rfl
    (fragment 0 0 true (BigEndian.toBE 8 7 ++ data)) 0
  conv =>
    rhs
    rw [← hsent]
  rfl

/-- The headers of a body of 65538 fragments say that there are two. -/
theorem received_truncated (body : List UInt8) (hcount : fragCount body = 65538) (i : ℕ)
    (hi : i < 2) (tMs : Int64) :
    received [] 0 (tMs, (header 0 0 true body i).encode (chunk body i)) =
      some (tMs, ⟨0, UInt16.ofNat i, 2, true⟩) := by
  have hheader : header 0 0 true body i = DatagramHeader.new true 0 0 (UInt16.ofNat i) 2 := by
    rw [header, hcount]
    rfl
  have hindex : ∀ j < 2, UInt16.ofNat j < 2 := by decide
  have haccepts : Accepts [] (DatagramHeader.new true 0 0 (UInt16.ofNat i) 2).streamId :=
    Or.inl rfl
  rw [received, hheader, decode_encode _ _ [] (new_valid true 0 0 _ 2 (hindex i hi))
    (length_chunk_le body i), if_pos haccepts]
  rfl

/-- A tick whose access unit needs 65538 datagrams. The client delivers it when
    the first two have come. -/
theorem subset_delivered : ∃ f,
    run (System.constantEncoder (List.replicate (65537 * MAX_PAYLOAD) 0)) 0 {} 0 [sampleTick] =
      [f] ∧
    f.sent.length = 65538 ∧
    (∃ dg ∈ f.sent, ∃ dg' ∈ f.sent,
      (receive [] 0 [(0, dg), (1, dg')]).events = [.Deliver 1 0 true]) ∧
    ¬ Truthful 0 [f] := by
  have hrun := runOf_one (List.replicate (65537 * MAX_PAYLOAD) 0)
  generalize hbody : BigEndian.toBE 8 7 ++ List.replicate (65537 * MAX_PAYLOAD) 0 = body at hrun
  have hlen : body.length = 65537 * MAX_PAYLOAD + 8 := by
    rw [← hbody, List.length_append, BigEndian.length_toBE, List.length_replicate, Nat.add_comm]
  -- The count in the headers is 65538 mod 2^16, which is 2.
  have hcount : fragCount body = 65538 := by
    have hover := (ceil_le_iff body 65537).not.mpr (by omega)
    have henough := (ceil_le_iff body 65538).mpr (by rw [hlen]; decide)
    rw [fragCount]
    omega
  refine ⟨_, hrun, ?_, ⟨(header 0 0 true body 0).encode (chunk body 0), ?_,
    (header 0 0 true body 1).encode (chunk body 1), ?_, ?_⟩, fun htrue => ?_⟩
  · rw [fragment_eq, List.length_map, List.length_range, hcount]
  · exact (mem_fragment 0 0 true body _).mpr ⟨0, by omega, rfl⟩
  · exact (mem_fragment 0 0 true body _).mpr ⟨1, by omega, rfl⟩
  · rw [receive, List.filterMap_cons_some (received_truncated body hcount 0 (by decide) 0),
      List.filterMap_cons_some (received_truncated body hcount 1 (by decide) 1)]
    decide
  · have hsmall := small_of_headers _ fun i dg hdg =>
      (htrue.headers _ List.mem_cons_self i dg hdg).2.2
    have hle := fragCount_le body hsmall
    omega

end Truncated

end Media

end LoomHost
