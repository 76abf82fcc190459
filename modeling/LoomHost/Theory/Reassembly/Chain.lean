import LoomHost.Lib.DecodeChain
import LoomHost.Theory.Reassembly.Push

/-!
# The Delivered Frames Are Decodable

What the reassembler is for: whatever the network does to the datagrams, the
frames it hands on can be decoded by a decoder that keeps one picture. The
invariant says that `lastDecoded` is the last delivered frame, that it is not
above the newest completed one, and that the deliveries so far are decodable.
A completed frame is above the newest completed one, so a delivery always
rises, and gating lets a frame that is not a keyframe through only right after
`lastDecoded`.

## Main definitions

* `deliveries`: The frames delivered, with their keyframe flags.
* `Gated`: The invariant.

## Theorems

* `gated_push`: A push keeps the invariant.
* `deliveries_decodable`: The deliveries of every trace are decodable.
* `deliveries_chain`: The same in the words of the events.
-/

namespace LoomHost

namespace Reassembly

/-- The frames delivered, in order, with their keyframe flags. -/
def deliveries (events : List Event) : List (UInt32 × Bool) :=
  events.filterMap fun
    | .Deliver _ seq keyframe => some (seq, keyframe)
    | .IdrRequest _ _ => none

@[simp] theorem deliveries_nil : deliveries [] = [] := rfl

theorem deliveries_append (a b : List Event) :
    deliveries (a ++ b) = deliveries a ++ deliveries b := List.filterMap_append

/-- The number of a delivered frame. -/
def frameNum (d : UInt32 × Bool) : ℕ := d.1.toNat

namespace Reassembler

/-- The delivered frames are decodable, the last of them is `lastDecoded`,
    and it is not above the newest completed frame. -/
structure Gated (r : Reassembler) : Prop where
  chain : DecodeChain.Decodable frameNum Prod.snd (deliveries r.events)
  last : r.lastDecoded = (deliveries r.events).getLast?.map fun d => (frameNum d : Int)
  bound : ∀ n, r.lastDecoded = some n → n ≤ r.newestComplete

theorem gated_new : Gated new :=
  ⟨DecodeChain.Decodable.nil, rfl, fun _ h => absurd h (by simp only [new, reduceCtorEq,
    not_false_eq_true])⟩

/-- Requests do not change what has been delivered. -/
theorem deliveries_maybeIdr (r : Reassembler) (tMs : Int64) :
    deliveries (r.maybeIdr tMs).events = deliveries r.events := by
  rcases r.maybeIdr_events tMs with h | ⟨lastGood, h⟩
  · rw [h]
  · rw [h, deliveries_append]
    exact List.append_nil _

/-- Gating a completed frame that is newer than everything delivered. -/
theorem gated_gate (r : Reassembler) (tMs : Int64) (seq : UInt32) (keyframe : Bool)
    (hr : Gated r) (hnew : ∀ n, r.lastDecoded = some n → n < seq.toNat)
    (hle : (seq.toNat : Int) ≤ r.newestComplete) : Gated (r.gate tMs seq keyframe) := by
  by_cases hdec : keyframe = true ∨ r.lastDecoded = some ((seq.toNat : Int) - 1)
  · rw [r.gate_deliver tMs seq keyframe hdec]
    have hevents : deliveries (r.deliver tMs seq keyframe).events =
        deliveries r.events ++ [(seq, keyframe)] := deliveries_append _ _
    refine ⟨?_, ?_, ?_⟩
    · rw [hevents]
      refine hr.chain.snoc (seq, keyframe) (fun p hp => ?_) (fun hkey => ?_)
      · have hlast := hr.last
        rw [hp, Option.map_some] at hlast
        have := hnew _ hlast
        simp only [frameNum] at this ⊢
        omega
      · -- Not a keyframe, so it was let through right after `lastDecoded`.
        rcases hdec with hk | hl
        · exact absurd (hk.symm.trans hkey) (by simp only [reduceCtorEq, not_false_eq_true])
        · rw [hr.last, Option.map_eq_some_iff] at hl
          rcases hl with ⟨p, hp, hnum⟩
          refine ⟨p, hp, ?_⟩
          simp only [frameNum] at hnum ⊢
          omega
    · rw [hevents, List.getLast?_concat]
      rfl
    · intro n hn
      rw [← Option.some.inj hn]
      exact hle
  · rw [r.gate_discard tMs seq keyframe hdec]
    refine ⟨?_, ?_, ?_⟩
    · rw [deliveries_maybeIdr]
      exact hr.chain
    · rw [deliveries_maybeIdr, maybeIdr_lastDecoded]
      exact hr.last
    · rw [maybeIdr_lastDecoded, maybeIdr_newest]
      exact hr.bound

theorem gated_push (r : Reassembler) (tMs : Int64) (frag : Fragment) (hr : Gated r) :
    Gated (r.push tMs frag) := by
  have hcases := r.push_cases tMs frag
  generalize r.push tMs frag = r' at hcases ⊢
  cases hcases with
  | stale hadm => exact ⟨hr.chain, hr.last, hr.bound⟩
  | pending a e hadm hne hentry hcard =>
      refine ⟨?_, ?_, ?_⟩
      · rw [store_events, prepare_events]
        exact hr.chain
      · rw [store_events, prepare_events, store_lastDecoded, prepare_lastDecoded]
        exact hr.last
      · rw [store_lastDecoded, prepare_lastDecoded, store_newest, prepare_newest]
        exact hr.bound
  | completed a e hadm hne hentry hcard =>
      -- It is above the newest completed frame, so above everything delivered.
      have hlt := (r.admission_spec frag a hadm).newest_lt hne
      refine gated_gate _ tMs frag.frameSeq e.keyframe ⟨?_, ?_, ?_⟩ ?_ (le_max_right _ _)
      · rw [sweep_events, prepare_events]
        exact hr.chain
      · rw [sweep_events, prepare_events, sweep_lastDecoded, prepare_lastDecoded]
        exact hr.last
      · intro n hn
        rw [sweep_lastDecoded, prepare_lastDecoded] at hn
        rw [sweep_newest, prepare_newest]
        exact le_trans (hr.bound n hn) (le_max_left _ _)
      · intro n hn
        rw [sweep_lastDecoded, prepare_lastDecoded] at hn
        have := hr.bound n hn
        omega

theorem gated_pushAll (trace : List (Int64 × Fragment)) : Gated (new.pushAll trace) :=
  pushAll_invariant gated_push trace new gated_new

/-- The deliveries of every trace are decodable. -/
theorem deliveries_decodable (trace : List (Int64 × Fragment)) :
    DecodeChain.Decodable frameNum Prod.snd (deliveries (new.pushAll trace).events) :=
  (gated_pushAll trace).chain

/-- Whatever is pushed into a fresh reassembler, the delivered frame numbers
    rise, the first delivered frame is a keyframe, and a frame that is not a
    keyframe is delivered right after the frame numbered one below it. -/
theorem deliveries_chain (trace : List (Int64 × Fragment)) :
    ((deliveries (new.pushAll trace).events).map Prod.fst).Pairwise (· < ·) ∧
    (∀ d, (deliveries (new.pushAll trace).events).head? = some d → d.2 = true) ∧
    (∀ pre n post, deliveries (new.pushAll trace).events = pre ++ (n, false) :: post →
      ∃ pre' p keyframe, pre = pre' ++ [(p, keyframe)] ∧ p.toNat + 1 = n.toNat) := by
  have hdec := deliveries_decodable trace
  refine ⟨?_, fun d hd => hdec.head_key d hd, fun pre n post heq => ?_⟩
  · rw [List.pairwise_map]
    exact hdec.increasing.imp fun hab => UInt32.lt_iff_toNat_lt.mpr hab
  · rcases hdec.linked pre (n, false) post heq rfl with ⟨⟨p, keyframe⟩, hp, hnum⟩
    rcases List.getLast?_eq_some_iff.mp hp with ⟨pre', hpre⟩
    exact ⟨pre', p, keyframe, hpre, hnum⟩

end Reassembler

end Reassembly

end LoomHost
