import LoomHost.Theory.Reassembly.Chain
import LoomHost.Theory.Reassembly.Entries

/-!
# Where a Delivered Frame Comes From

The keyframe flag of an entry is that of the fragment that opened it, and the
flag of a delivery is that of its entry. So a delivered frame carries the number
and the flag of a fragment that was pushed, whatever else was.

## Main definitions

* `Marked`: The flags of the entries and the deliveries are of a kind.

## Theorems

* `marked_push`: A fragment of the kind keeps it.
* `mem_deliveries`: A delivered frame has a fragment in the trace.
-/

namespace LoomHost

namespace Reassembly

namespace Reassembler

/-- Every entry and every delivery has a flag that its frame may have. -/
structure Marked (P : UInt32 → Bool → Prop) (r : Reassembler) : Prop where
  entries : ∀ (s : UInt32) (e : Incomplete), r.incomplete[s]? = some e → P s e.keyframe
  delivered : ∀ d ∈ deliveries r.events, P d.1 d.2

variable {P : UInt32 → Bool → Prop}

theorem marked_new : Marked P new :=
  ⟨fun s e he => absurd he (not_entry_new s e), fun _ hd => absurd hd List.not_mem_nil⟩

theorem marked_push (r : Reassembler) (tMs : Int64) (frag : Fragment) (hr : Marked P r)
    (hfrag : P frag.frameSeq frag.keyframe) : Marked P (r.push tMs frag) := by
  refine ⟨fun s e he => ?_, fun d hd => ?_⟩
  · rcases r.push_entry tMs frag s e he with hold | ⟨rfl, _, e', rfl, hold | ⟨_, rfl⟩⟩
    · exact hr.entries s e hold
    · exact hr.entries frag.frameSeq e' hold
    · exact hfrag
  · have hcases := r.push_cases tMs frag
    generalize r.push tMs frag = r' at hcases hd
    cases hcases with
    | stale hadm => exact hr.delivered d hd
    | pending a e hadm hne hentry hcard =>
        rw [store_events, prepare_events] at hd
        exact hr.delivered d hd
    | completed a e hadm hne hentry hcard =>
        -- The completed entry was there before, or the fragment opened it.
        have hflag : P frag.frameSeq e.keyframe := by
          rcases r.prepare_entry frag a hadm _ e hentry with hold | ⟨_, _, rfl⟩
          · exact hr.entries _ e hold
          · exact hfrag
        by_cases hdec : e.keyframe = true ∨
            ((r.prepare frag a).sweep frag.frameSeq).lastDecoded =
              some ((frag.frameSeq.toNat : Int) - 1)
        · rw [gate_deliver _ _ _ _ hdec, deliver, deliveries_append, sweep_events,
            prepare_events] at hd
          rcases List.mem_append.mp hd with hd | hd
          · exact hr.delivered d hd
          · rw [show d = (frag.frameSeq, e.keyframe) from List.mem_singleton.mp hd]
            exact hflag
        · rw [gate_discard _ _ _ _ hdec, deliveries_maybeIdr] at hd
          exact hr.delivered d (congrArg deliveries (prepare_events r frag a) ▸ hd)

theorem marked_pushAll (trace : List (Int64 × Fragment)) :
    ∀ r : Reassembler, Marked P r → (∀ x ∈ trace, P x.2.frameSeq x.2.keyframe) →
      Marked P (r.pushAll trace) := by
  induction trace with
  | nil => exact fun r hr _ => hr
  | cons x rest ih =>
      intro r hr hall
      exact ih _ (marked_push r x.1 x.2 hr (hall x List.mem_cons_self))
        (fun y hy => hall y (List.mem_cons_of_mem _ hy))

/-- A delivered frame has the number and the flag of a fragment of the trace. -/
theorem mem_deliveries (trace : List (Int64 × Fragment)) (d : UInt32 × Bool)
    (hd : d ∈ deliveries (new.pushAll trace).events) :
    ∃ x ∈ trace, x.2.frameSeq = d.1 ∧ x.2.keyframe = d.2 := by
  have hmarked := marked_pushAll trace new
    (marked_new (P := fun s k => ∃ x ∈ trace, x.2.frameSeq = s ∧ x.2.keyframe = k))
    (fun x hx => ⟨x, hx, rfl, rfl⟩)
  exact hmarked.delivered d hd

end Reassembler

end Reassembly

end LoomHost
