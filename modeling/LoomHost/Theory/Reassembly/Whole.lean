import LoomHost.Theory.Reassembly.Fate
import LoomHost.Theory.Reassembly.Recovery

/-!
# What a Completed Frame Contains

A frame completes when it has as many distinct indices as its first fragment
says it has fragments. The indices are those of every fragment of the frame
received so far: nothing of it is ever dropped once it is in flight, and no
entry is opened for a frame that had one before.

The count and the indices agree only if no index is out of range. The decoder
checks an index against the count in its own datagram, the reassembler against
none, so a fragment with a larger count can stand in for a missing one.

## Main definitions

* `Opens`: The fragment of a trace that opened a frame's entry.
* `Kept`: The entries hold what the trace has of their frames.

## Theorems

* `kept_pushAll`: Every reached state has kept everything.
* `opened_of_completes`: A completed frame has the count of its first fragment.
* `completes_whole_iff`: A completed frame is whole if no index is out of range.
* `frame_with_a_hole`: And not if one is.
-/

namespace LoomHost

namespace Reassembly

namespace Reassembler

/-- `first` is the fragment of a trace that opened the entry of `seq`. -/
def Opens (trace : List (Int64 × Fragment)) (seq : UInt32) (first : Fragment) : Prop :=
  ∃ a tMs b, trace = a ++ (tMs, first) :: b ∧ (new.pushAll a).admits first = true ∧
    first.frameSeq = seq

/-- The entries hold what the trace has of their frames, and every frame of the
    trace is settled. -/
structure Kept (p : List (Int64 × Fragment)) (r : Reassembler) : Prop where
  settled : ∀ x ∈ p, Window.Settled 2 r.slots x.2.frameSeq.toNat
  entry : ∀ s e, r.incomplete[s]? = some e →
    e.got = indices p s.toNat ∧ ∃ first, Opens p s first ∧ e.need = first.fragCount

theorem kept_new : Kept [] new :=
  ⟨fun _ hx => absurd hx List.not_mem_nil, fun s e he => absurd he (not_entry_new s e)⟩

theorem Opens.concat {p : List (Int64 × Fragment)} {s : UInt32} {first : Fragment}
    (h : Opens p s first) (x : Int64 × Fragment) : Opens (p ++ [x]) s first := by
  rcases h with ⟨a, tMs, b, rfl, hadmits, hseq⟩
  exact ⟨a, tMs, b ++ [x], by rw [List.append_assoc, List.cons_append], hadmits, hseq⟩

section Step

variable {p : List (Int64 × Fragment)} {x : Int64 × Fragment}

/-- A fragment of a frame without an entry opens one, unless it is stale. -/
theorem admits_of_not_mem (r : Reassembler) (frag : Fragment) (a : Admission)
    (hadm : r.admission frag = some a) (hne : a ≠ .stale) (hmem : frag.frameSeq ∉ r.incomplete) :
    r.admits frag = true := by
  rw [r.admits_eq frag a hadm]
  cases r.admission_spec frag a hadm with
  | old _ => exact absurd rfl hne
  | below _ _ _ _ => exact absurd rfl hne
  | present _ hmem' => exact absurd hmem' hmem
  | opened _ _ _ => rfl
  | evicting _ _ _ _ _ _ _ => rfl

/-- The entry a fragment enters holds the rest of its frame. -/
theorem Kept.prepared (hk : Kept p (new.pushAll p)) (a : Admission) (e : Incomplete)
    (hadm : (new.pushAll p).admission x.2 = some a) (hne : a ≠ .stale)
    (hentry : ((new.pushAll p).prepare x.2 a).incomplete[x.2.frameSeq]? = some e) :
    (e.receive x.2).got = indices (p ++ [x]) x.2.frameSeq.toNat ∧
      ∃ first, Opens (p ++ [x]) x.2.frameSeq first ∧ e.need = first.fragCount := by
  rw [indices_concat_self p x _ rfl, Incomplete.receive_got]
  rcases (new.pushAll p).prepare_entry x.2 a hadm _ e hentry with hold | ⟨-, hmem, rfl⟩
  · rcases hk.entry _ e hold with ⟨hgot, first, hopens, hneed⟩
    exact ⟨by rw [hgot], first, hopens.concat x, hneed⟩
  · -- A frame that opens an entry has not been seen before.
    have hadmits := admits_of_not_mem _ x.2 a hadm hne hmem
    have hfresh : ¬ Started p x.2.frameSeq.toNat := by
      rintro ⟨y, hy, hseq⟩
      exact not_settled_of_admits _ x.2 hadmits (hseq ▸ hk.settled y hy)
    rw [indices_eq_empty p _ hfresh]
    exact ⟨rfl, x.2, ⟨p, x.1, [], rfl, hadmits, rfl⟩, rfl⟩

/-- The entries of other frames hold what they held. -/
theorem Kept.other (hk : Kept p (new.pushAll p)) (s : UInt32) (e : Incomplete)
    (hs : s ≠ x.2.frameSeq) (he : (new.pushAll p).incomplete[s]? = some e) :
    e.got = indices (p ++ [x]) s.toNat ∧
      ∃ first, Opens (p ++ [x]) s first ∧ e.need = first.fragCount := by
  rcases hk.entry s e he with ⟨hgot, first, hopens, hneed⟩
  have hne : x.2.frameSeq.toNat ≠ s.toNat := fun heq => hs (UInt32.toNat_inj.mp heq.symm)
  exact ⟨by rw [indices_concat_of_ne p x _ hne, hgot], first, hopens.concat x, hneed⟩

theorem Kept.push (hk : Kept p (new.pushAll p)) :
    Kept (p ++ [x]) ((new.pushAll p).push x.1 x.2) := by
  have hw := wf_pushAll new p wf_new
  have hreach := (new.pushAll p).push_reaches x.1 x.2 hw
  refine ⟨fun y hy => ?_, fun s e he => ?_⟩
  · rcases List.mem_append.mp hy with hy | hy
    · exact Window.settled_of_reaches hreach (hk.settled y hy)
    · rw [List.mem_singleton.mp hy]
      exact settled_push _ x.1 x.2
  have hcases := (new.pushAll p).push_cases x.1 x.2
  generalize (new.pushAll p).push x.1 x.2 = r' at hcases he
  cases hcases with
  | stale hadm =>
      -- A stale fragment's frame has no entry.
      refine hk.other s e (fun hs => ?_) he
      subst hs
      have hmem : x.2.frameSeq ∈ (new.pushAll p).incomplete :=
        Std.ExtTreeMap.isSome_getElem?_iff_mem.mp (Option.isSome_iff_exists.mpr ⟨e, he⟩)
      exact Window.Shut.not_live hw ((stale_iff_shut _ x.2).mp hadm) ((mem_live _ _).mpr hmem)
  | pending a e' hadm hne hentry hcard =>
      rw [getElem?_store] at he
      split_ifs at he with hs
      · subst hs
        rw [← Option.some.inj he, Incomplete.receive_need]
        exact hk.prepared a e' hadm hne hentry
      · rcases prepare_entry _ x.2 a hadm s e he with hold | ⟨hs', -, -⟩
        · exact hk.other s e hs hold
        · exact absurd hs' hs
  | completed a e' hadm hne hentry hcard =>
      rw [gate_incomplete, getElem?_sweep] at he
      split_ifs at he with hlt
      have hs : s ≠ x.2.frameSeq := by
        rintro rfl
        exact absurd hlt (not_lt_of_ge (le_max_right _ _))
      rcases prepare_entry _ x.2 a hadm s e he with hold | ⟨hs', -, -⟩
      · exact hk.other s e hs hold
      · exact absurd hs' hs

end Step

/-- Every reached state has kept everything. -/
theorem kept_pushAll (p : List (Int64 × Fragment)) : Kept p (new.pushAll p) := by
  induction p using List.reverseRecOn with
  | nil => exact kept_new
  | append_singleton p x ih =>
      rw [pushAll_append]
      exact ih.push

/-- A frame in the middle of a trace stays settled to its end. -/
theorem settled_of_append (a b : List (Int64 × Fragment)) (x : Int64 × Fragment) :
    Window.Settled 2 (new.pushAll (a ++ x :: b)).slots x.2.frameSeq.toNat :=
  (kept_pushAll (a ++ x :: b)).settled x (List.mem_append_right a List.mem_cons_self)

/-- A frame's entry is opened once. -/
theorem opens_unique {p : List (Int64 × Fragment)} {s : UInt32} {first first' : Fragment}
    (h : Opens p s first) (h' : Opens p s first') : first = first' := by
  rcases h with ⟨a, tMs, b, rfl, hadmits, hseq⟩
  rcases h' with ⟨a', tMs', b', heq, hadmits', hseq'⟩
  rcases List.append_eq_append_iff.mp heq with ⟨c, rfl, hc⟩ | ⟨c, rfl, hc⟩
  · cases c with
    | nil => exact (Prod.mk.inj (List.cons.inj hc).1).2
    | cons y c =>
        -- The first opening settles the frame, so the second cannot be.
        rw [← (List.cons.inj hc).1] at hadmits'
        have hsettled := settled_of_append a c (tMs, first)
        dsimp only at hsettled
        rw [hseq, ← hseq'] at hsettled
        exact absurd hsettled (not_settled_of_admits _ first' hadmits')
  · cases c with
    | nil => exact (Prod.mk.inj (List.cons.inj hc).1).2.symm
    | cons y c =>
        rw [← (List.cons.inj hc).1] at hadmits
        have hsettled := settled_of_append a' c (tMs', first')
        dsimp only at hsettled
        rw [hseq', ← hseq] at hsettled
        exact absurd hsettled (not_settled_of_admits _ first hadmits)

/-- A push that completes a frame: one fragment opened its entry, and there are
    as many indices as the count of that one. -/
theorem opened_of_completes (p : List (Int64 × Fragment)) (tMs : Int64) (frag : Fragment)
    (hcompletes : (new.pushAll p).Completes tMs frag) :
    ∃ first, (∀ f, Opens (p ++ [(tMs, frag)]) frag.frameSeq f ↔ f = first) ∧
      (indices (p ++ [(tMs, frag)]) frag.frameSeq.toNat).card = first.fragCount.toNat := by
  -- Completing is filling the entry, and the entry holds what was received.
  rcases (completes_iff _ tMs frag).mp hcompletes with ⟨a, hadm, hne, e, hentry, hcard⟩
  rcases (kept_pushAll p).prepared (x := (tMs, frag)) a e hadm hne hentry with
    ⟨hgot, first, hopens, hneed⟩
  dsimp only at hgot
  rw [hgot, hneed] at hcard
  exact ⟨first, fun f => ⟨fun hf => opens_unique hf hopens, fun hf => hf ▸ hopens⟩, hcard⟩

/-- As many indices as the count says, all of them in range: none is missing. -/
theorem whole_of_range (p : List (Int64 × Fragment)) (seq : UInt32) (first : Fragment)
    (hcard : (indices p seq.toNat).card = first.fragCount.toNat)
    (hrange : ∀ x ∈ p, x.2.frameSeq = seq → x.2.fragIndex < first.fragCount) (i : UInt16) :
    i ∈ indices p seq.toNat ↔ i < first.fragCount := by
  have hbelow : ∀ j ∈ indices p seq.toNat, j.toNat < first.fragCount.toNat := by
    intro j hj
    rcases (mem_indices _ _ _).mp hj with ⟨x, hx, hseq, rfl⟩
    exact UInt16.lt_iff_toNat_lt.mp (hrange x hx (UInt32.toNat_inj.mp hseq))
  have hcovers := (card_eq_iff_covers _ _ hbelow).mp hcard
  refine ⟨fun hi => UInt16.lt_iff_toNat_lt.mpr (hbelow i hi), fun hi => ?_⟩
  rcases hcovers i.toNat (UInt16.lt_iff_toNat_lt.mp hi) with ⟨j, hj, heq⟩
  exact UInt16.toNat_inj.mp heq ▸ hj

/-- A push that completes a frame, by handing it to the decoder or discarding
    it: the frame is that of its fragment, one fragment opened its entry, and its
    indices are those below the count of that one if and only if no fragment of
    the frame has an index out of range. -/
theorem completes_whole_iff (p : List (Int64 × Fragment)) (tMs : Int64) (frag : Fragment)
    (hcompletes : (new.pushAll p).Completes tMs frag) :
    (∀ seq keyframe, (new.pushAll (p ++ [(tMs, frag)])).events =
        (new.pushAll p).events ++ [.Deliver tMs seq keyframe] → seq = frag.frameSeq) ∧
    ∃ first, (∀ f, Opens (p ++ [(tMs, frag)]) frag.frameSeq f ↔ f = first) ∧
      ((∀ i, i ∈ indices (p ++ [(tMs, frag)]) frag.frameSeq.toNat ↔ i < first.fragCount) ↔
        ∀ x ∈ p ++ [(tMs, frag)], x.2.frameSeq = frag.frameSeq →
          x.2.fragIndex < first.fragCount) := by
  constructor
  · intro seq keyframe hdeliver
    rw [pushAll_append] at hdeliver
    exact delivered_seq _ tMs frag seq keyframe hdeliver
  rcases opened_of_completes p tMs frag hcompletes with ⟨first, hopens, hcard⟩
  refine ⟨first, hopens, fun hwhole x hx hseq => ?_, fun hrange => ?_⟩
  · exact (hwhole _).mp ((mem_indices _ _ _).mpr ⟨x, hx, congrArg UInt32.toNat hseq, rfl⟩)
  · exact whole_of_range _ _ first hcard hrange

/-- A frame of two fragments, in order. -/
theorem completes_whole_iff_two :
    (∀ seq keyframe,
      (new.pushAll ([(0, ⟨0, 0, 2, true⟩)] ++ [(1, ⟨0, 1, 2, true⟩)])).events =
        (new.pushAll [(0, ⟨0, 0, 2, true⟩)]).events ++ [.Deliver 1 seq keyframe] → seq = 0) ∧
    ∃ first, (∀ f, Opens ([(0, ⟨0, 0, 2, true⟩)] ++ [(1, ⟨0, 1, 2, true⟩)]) 0 f ↔ f = first) ∧
      ((∀ i, i ∈ indices ([(0, ⟨0, 0, 2, true⟩)] ++ [(1, ⟨0, 1, 2, true⟩)]) 0 ↔
          i < first.fragCount) ↔
        ∀ x ∈ [((0 : Int64), (⟨0, 0, 2, true⟩ : Fragment))] ++ [(1, ⟨0, 1, 2, true⟩)],
          x.2.frameSeq = 0 → x.2.fragIndex < first.fragCount) :=
  completes_whole_iff [(0, ⟨0, 0, 2, true⟩)] 1 ⟨0, 1, 2, true⟩ (Or.inl ⟨0, true, by decide⟩)

/-- A keyframe whose first fragment says it has two; the other fragment received
    is the last of three. The frame is delivered with a hole. -/
theorem frame_with_a_hole :
    (new.pushAll [(0, ⟨0, 0, 2, true⟩)]).Completes 1 ⟨0, 2, 3, true⟩ ∧
    (new.pushAll [(0, ⟨0, 0, 2, true⟩), (1, ⟨0, 2, 3, true⟩)]).events = [.Deliver 1 0 true] ∧
    Opens [(0, ⟨0, 0, 2, true⟩), (1, ⟨0, 2, 3, true⟩)] 0 ⟨0, 0, 2, true⟩ ∧
    1 ∉ indices [(0, ⟨0, 0, 2, true⟩), (1, ⟨0, 2, 3, true⟩)] 0 ∧
    2 ∈ indices [(0, ⟨0, 0, 2, true⟩), (1, ⟨0, 2, 3, true⟩)] 0 :=
  ⟨Or.inl ⟨0, true, by decide⟩, by decide, ⟨[], 0, _, rfl, by decide, rfl⟩, by decide,
    by decide⟩

end Reassembler

end Reassembly

end LoomHost
