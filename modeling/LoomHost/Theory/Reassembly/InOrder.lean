import LoomHost.Theory.Reassembly.Recovery

/-!
# A Network that Keeps the Order

A network that does not reorder datagrams keeps the frames of a run apart: when
a fragment arrives for the first time, all those that were sent before it have
arrived, so at most one frame is in flight. It may still duplicate, and it may
hold back fragments of older frames as long as it likes.

## Main definitions

* `FrameRun.InOrder`: No fragment arrives before one that was sent before it.

## Theorems

* `InOrder.whole_of_started`: A frame that has started finds the ones before it
  whole.
* `InOrder.continues`, `InOrder.not_overtaken`: What `recovers` asks of a network.
* `restored`: The frames of the run are delivered in order, without a request.
-/

namespace LoomHost

namespace Reassembly

namespace FrameRun

variable (f : FrameRun)

/-- Every fragment of the frames of a run arrives, with any duplicates and any
    fragments of older frames between them, and none arrives before one that was
    sent before it. -/
structure InOrder (c : List (Int64 × Fragment)) : Prop where
  first_key : f.keyframe f.first = true
  positive : ∀ n, f.first ≤ n → n ≤ f.first + f.more → 1 ≤ (f.count n).toNat
  frags : ∀ x ∈ c, x.2.frameSeq.toNat < f.first ∨
    (x.2.frameSeq.toNat ≤ f.first + f.more ∧
      x.2.fragCount = f.count x.2.frameSeq.toNat ∧
      x.2.keyframe = f.keyframe x.2.frameSeq.toNat ∧
      x.2.fragIndex.toNat < (f.count x.2.frameSeq.toNat).toNat)
  whole : ∀ n, f.first ≤ n → n ≤ f.first + f.more → f.Whole c n
  ordered : ∀ p x s, c = p ++ x :: s → f.first ≤ x.2.frameSeq.toNat →
    ∀ n i, f.first ≤ n → i < (f.count n).toNat →
      n < x.2.frameSeq.toNat ∨ n = x.2.frameSeq.toNat ∧ i < x.2.fragIndex.toNat →
      ∃ y ∈ p, y.2.frameSeq.toNat = n ∧ y.2.fragIndex.toNat = i

variable {f} {c : List (Int64 × Fragment)}

/-- When a frame has started, the ones before it are whole. -/
theorem InOrder.whole_of_started (h : f.InOrder c) {p s : List (Int64 × Fragment)}
    (hp : c = p ++ s) {n k : ℕ} (hn : f.first ≤ n) (hnk : n < k) (hk : Started p k) :
    f.Whole p n := by
  intro i hi
  rcases hk with ⟨x, hx, rfl⟩
  rcases List.append_of_mem hx with ⟨a, b, rfl⟩
  have hsplit : c = a ++ x :: (b ++ s) := by
    rw [hp, List.append_assoc, List.cons_append]
  rcases h.ordered a x (b ++ s) hsplit (by omega) n i hn hi (Or.inl hnk) with ⟨y, hy, hyn, hyi⟩
  exact ⟨y, List.mem_append_left _ hy, hyn, hyi⟩

/-- So at most one frame is in flight. -/
theorem InOrder.one_in_flight (h : f.InOrder c) {p s : List (Int64 × Fragment)} (hp : c = p ++ s)
    {a b : ℕ} (ha : f.InFlight p a) (hb : f.InFlight p b) : a = b := by
  by_contra hne
  rcases Nat.lt_or_gt_of_ne hne with hlt | hlt
  · exact ha.2.2 (h.whole_of_started hp ha.1 hlt hb.2.1)
  · exact hb.2.2 (h.whole_of_started hp hb.1 hlt ha.2.1)

theorem InOrder.continues (h : f.InOrder c) : f.Continues c := by
  refine ⟨h.first_key, h.positive, h.frags, h.whole, fun p s hp n hn hle hw => ?_,
    fun p s hp S hS => ?_⟩
  · -- A whole frame has its first fragment, at least.
    rcases hw 0 (h.positive (n + 1) (by omega) (by omega)) with ⟨y, hy, hyn, -⟩
    exact h.whole_of_started hp hn (Nat.lt_succ_self n) ⟨y, hy, hyn⟩
  · have hone : S.card ≤ 1 :=
      Finset.card_le_one.mpr fun a ha b hb => h.one_in_flight hp (hS a ha) (hS b hb)
    exact hone.trans (Nat.le_succ 1)

theorem InOrder.not_overtaken (h : f.InOrder c) : f.NotOvertaken c := by
  intro p x s hp _ _ _ a b hab _ _ hflight
  exact hab (h.one_in_flight hp hflight.1 hflight.2)

end FrameRun

namespace Reassembler

/-- If the network keeps the order, the frames of a run that starts with a
    keyframe newer than everything seen so far are delivered in order, and from
    the keyframe on nothing but deliveries follows. -/
theorem restored (f : FrameRun) (before c : List (Int64 × Fragment))
    (hbefore : ∀ x ∈ before, x.2.frameSeq.toNat < f.first) (hc : f.InOrder c) :
    deliveredFrom f.first (deliveries ((new.pushAll before).pushAll c).events) =
      List.range' f.first (f.more + 1) ∧
    (∀ p s, c = p ++ s → f.Whole p f.first →
      ∃ later, ((new.pushAll before).pushAll c).events =
          ((new.pushAll before).pushAll p).events ++ later ∧
        ∀ e ∈ later, ∃ tMs seq keyframe, e = .Deliver tMs seq keyframe) := by
  have hcontinues := hc.continues
  have hstart := tracks_of_below f c hcontinues _ (wf_pushAll new before wf_new)
    (below_pushAll f.first before new hbefore (below_new f.first))
  refine ⟨?_, fun p s hp hkey => ?_⟩
  · rcases tracks_pushAll hcontinues hc.not_overtaken [] c [] _ 0 (List.append_nil c).symm hstart
      with ⟨d, ht⟩
    -- The last frame of the run is whole, so all of them are delivered.
    have hall := (ht.whole (f.first + f.more) (by omega) (le_refl _)).mp
      (hc.whole _ (by omega) (le_refl _))
    have hle := ht.le
    have hd : d = f.more + 1 := by omega
    rw [← hd]
    exact ht.delivered
  · rcases tracks_pushAll hcontinues hc.not_overtaken s p [] _ 0 hp hstart with ⟨d, ht⟩
    have hpos := (ht.whole f.first (le_refl _) (by omega)).mp hkey
    rw [hp, pushAll_append]
    exact no_request_after hcontinues hc.not_overtaken s p _ d hp ht (by omega)

end Reassembler

end Reassembly

end LoomHost
