import LoomHost.Theory.Reassembly.Entries

/-!
# Duplicates Are Invisible

A fragment that arrives again, at any later time and in any later state,
changes nothing but the count of stale fragments. If its frame is in flight
the index is already there and the entry is not full, so the push stores the
entry it found. If its frame is not, it is shut, since it was settled when the
fragment first arrived, and the fragment is stale.

The two runs then differ by a number of stale fragments, `addStale`, and a push
does not look at that number, so the difference is carried to the end.

## Main definitions

* `WithRepeats`: A trace with repeats of earlier fragments inserted.
* `addStale`: A state with more stale fragments counted.
* `Known`: Fragments that have left their mark.

## Theorems

* `push_addStale`: A push does not look at the stale count.
* `push_known`: A known fragment at most counts as stale.
* `known_push`: A pushed fragment is known, and stays known.
* `pushAll_withRepeats`: Repeats only add to the stale count.
* `duplicates_invisible`: The same, field by field.
-/

namespace LoomHost

namespace Reassembly

/-- The second trace is the first with repeats of earlier fragments inserted,
    each after the fragment it repeats and with a time of its own. -/
inductive WithRepeats :
    List Fragment → List (Int64 × Fragment) → List (Int64 × Fragment) → Prop
  | nil (seen : List Fragment) : WithRepeats seen [] []
  | push (seen : List Fragment) (tMs : Int64) (frag : Fragment)
      (trace trace' : List (Int64 × Fragment))
      (h : WithRepeats (frag :: seen) trace trace') :
      WithRepeats seen ((tMs, frag) :: trace) ((tMs, frag) :: trace')
  | again (seen : List Fragment) (tMs : Int64) (frag : Fragment)
      (trace trace' : List (Int64 × Fragment)) (hseen : frag ∈ seen)
      (h : WithRepeats seen trace trace') :
      WithRepeats seen trace ((tMs, frag) :: trace')

namespace Reassembler

/-- The state with `k` more stale fragments counted. -/
def addStale (r : Reassembler) (k : ℕ) : Reassembler :=
  { r with counters.staleFragments := r.counters.staleFragments + k }

theorem maybeIdr_addStale (r : Reassembler) (k : ℕ) (tMs : Int64) :
    (r.addStale k).maybeIdr tMs = (r.maybeIdr tMs).addStale k := by
  have hlast : (r.addStale k).idrLastT = r.idrLastT := rfl
  unfold maybeIdr
  rw [hlast]
  cases r.idrLastT with
  | none => rfl
  | some last =>
      simp only
      split_ifs <;> rfl

theorem gate_addStale (r : Reassembler) (k : ℕ) (tMs : Int64) (seq : UInt32) (keyframe : Bool) :
    (r.addStale k).gate tMs seq keyframe = (r.gate tMs seq keyframe).addStale k := by
  have hlast : (r.addStale k).lastDecoded = r.lastDecoded := rfl
  unfold gate
  rw [hlast]
  split_ifs
  · rfl
  · rfl
  · exact maybeIdr_addStale
      { r with counters.discardedGap := r.counters.discardedGap + 1 } k tMs

theorem accept?_addStale (r : Reassembler) (k : ℕ) (tMs : Int64) (frag : Fragment) :
    (r.addStale k).accept? tMs frag = (r.accept? tMs frag).map fun r => r.addStale k := by
  have hmap : (r.addStale k).incomplete = r.incomplete := rfl
  unfold accept?
  rw [hmap, Option.map_map]
  refine congrArg (fun f => Option.map f _) (funext fun e => ?_)
  simp only [Function.comp_apply]
  split_ifs
  · rfl
  · exact gate_addStale (r.sweep frag.frameSeq) k tMs frag.frameSeq _

/-- A push does not look at the stale count. -/
theorem push_addStale (r : Reassembler) (k : ℕ) (tMs : Int64) (frag : Fragment) :
    (r.addStale k).push tMs frag = (r.push tMs frag).addStale k := by
  have hadm : (r.addStale k).admission frag = r.admission frag := rfl
  rcases Option.isSome_iff_exists.mp (r.admission_isSome frag) with ⟨a, ha⟩
  have hpush := (r.addStale k).push?_eq tMs frag
  have hpush' := congrArg (Option.map fun r => r.addStale k) (r.push?_eq tMs frag)
  rw [push?, hadm, ha, Option.bind_some] at hpush
  rw [push?, ha, Option.bind_some, Option.map_some] at hpush'
  refine Option.some.inj (hpush.symm.trans (Eq.trans ?_ hpush'))
  -- Both runs take the same branch.
  cases a with
  | stale =>
      have hcount : r.counters.staleFragments + k + 1 = r.counters.staleFragments + 1 + k := by
        omega
      simp only [Option.map_some, dropStale, addStale, hcount]
  | present => exact accept?_addStale r k tMs frag
  | opened => exact accept?_addStale (r.insert frag) k tMs frag
  | evicting oldest => exact accept?_addStale ((r.evict oldest).insert frag) k tMs frag

/-- The fragments of a list have left their mark: their frame is shut, or it is
    in flight and has their index. -/
def Known (r : Reassembler) (seen : List Fragment) : Prop :=
  ∀ f ∈ seen, Window.Shut 2 r.slots f.frameSeq.toNat ∨
    ∃ e, r.incomplete[f.frameSeq]? = some e ∧ f.fragIndex ∈ e.got

/-- A known fragment of a frame in flight changes nothing at all, and any other
    known fragment is counted as stale. -/
theorem push_known (r : Reassembler) (seen : List Fragment) (tMs : Int64) (frag : Fragment)
    (hw : Window.Wf 2 r.slots) (hpend : Pending r) (hknown : r.Known seen) (hf : frag ∈ seen) :
    ∃ k, r.push tMs frag = r.addStale k := by
  rcases hknown frag hf with hshut | ⟨e, he, hidx⟩
  · exact ⟨1, r.push_stale tMs frag ((r.stale_iff_shut frag).mpr hshut)⟩
  · have hmem : frag.frameSeq ∈ r.incomplete := by
      rw [← Std.ExtTreeMap.isSome_getElem?_iff_mem, he]
      rfl
    have hlive := (r.mem_live frag.frameSeq).mpr hmem
    refine ⟨0, ?_⟩
    have hcases := r.push_cases tMs frag
    generalize r.push tMs frag = r' at hcases ⊢
    cases hcases with
    | stale hadm =>
        exact absurd hlive (Window.Shut.not_live hw ((r.stale_iff_shut frag).mp hadm))
    | pending a e' hadm hne hentry hcard =>
        have ha : r.prepare frag a = r := by
          cases r.admission_spec frag a hadm with
          | old _ => rfl
          | below _ _ _ _ => rfl
          | present _ _ => rfl
          | opened _ hmem' _ => exact absurd hmem hmem'
          | evicting _ _ hmem' _ _ _ _ => exact absurd hmem hmem'
        rw [ha] at hentry ⊢
        -- The entry has the index already, so storing it again changes nothing.
        have hsame : (r.store frag e').incomplete = r.incomplete := by
          refine Std.ExtTreeMap.ext_getElem? fun x => ?_
          rw [getElem?_store]
          split_ifs with hx
          · rw [hx, hentry, e'.receive_of_mem frag]
            rw [he, Option.some.injEq] at hentry
            rw [← hentry]
            exact hidx
          · rfl
        simp only [store] at hsame
        simp only [store, hsame, addStale, Nat.add_zero]
    | completed a e' hadm hne hentry hcard =>
        -- The entry found would be full, and no entry of the window is.
        rcases r.prepare_entry frag a hadm _ e' hentry with hold | ⟨_, hmem', _⟩
        · rw [he, Option.some.injEq] at hold
          subst hold
          rw [e.receive_of_mem frag hidx] at hcard
          exact absurd hcard (hpend _ _ he)
        · exact absurd hmem hmem'

/-- What is known stays known, and a pushed fragment becomes known. -/
theorem known_push (r : Reassembler) (seen : List Fragment) (tMs : Int64) (frag : Fragment)
    (hw : Window.Wf 2 r.slots) (hknown : r.Known seen) :
    (r.push tMs frag).Known (frag :: seen) := by
  intro f hf
  rcases List.mem_cons.mp hf with rfl | hf
  · have hcases := r.push_cases tMs f
    generalize r.push tMs f = r' at hcases ⊢
    cases hcases with
    | stale hadm => exact Or.inl ((r.stale_iff_shut f).mp hadm)
    | pending a e hadm hne hentry hcard =>
        refine Or.inr ⟨e.receive f, ?_, Finset.mem_insert_self _ _⟩
        rw [getElem?_store, if_pos rfl]
    | completed a e hadm hne hentry hcard =>
        refine Or.inl (Or.inl ?_)
        rw [mem_done, gate_newest, sweep_newest]
        exact le_max_right _ _
  · have hreach := r.push_reaches tMs frag hw
    rcases hknown f hf with hshut | ⟨e, he, hidx⟩
    · exact Or.inl (Window.shut_of_reaches hreach hshut)
    · have hlive : f.frameSeq ∈ r.incomplete := by
        rw [← Std.ExtTreeMap.isSome_getElem?_iff_mem, he]
        rfl
      rcases he' : (r.push tMs frag).incomplete[f.frameSeq]? with _ | e'
      · -- The frame left the window in this push.
        refine Or.inl (Window.shut_of_reaches_left hreach ((r.mem_live _).mpr hlive) ?_)
        rw [mem_live, ← Std.ExtTreeMap.isSome_getElem?_iff_mem, he']
        exact Bool.false_ne_true
      · -- Its entry is the one it had, with perhaps one more index.
        refine Or.inr ⟨e', rfl, ?_⟩
        rcases r.push_entry tMs frag _ e' he' with hold | ⟨_, _, e₀, hrec, hold | ⟨hgone, _⟩⟩
        · rw [he, Option.some.injEq] at hold
          exact hold ▸ hidx
        · rw [he, Option.some.injEq] at hold
          rw [hrec, ← hold]
          exact Finset.mem_insert_of_mem hidx
        · exact absurd hlive hgone

/-- Repeats only add to the stale count, from any state that knows what was
    seen. -/
theorem pushAll_withRepeats (seen : List Fragment) (trace trace' : List (Int64 × Fragment))
    (h : WithRepeats seen trace trace') :
    ∀ (r : Reassembler) (k : ℕ), Window.Wf 2 r.slots → Pending r → r.Known seen →
      ∃ k', (r.addStale k).pushAll trace' = (r.pushAll trace).addStale k' := by
  induction h with
  | nil seen => exact fun r k _ _ _ => ⟨k, rfl⟩
  | push seen tMs frag trace trace' _ ih =>
      intro r k hw hpend hknown
      rw [pushAll_cons, pushAll_cons, push_addStale]
      exact ih (r.push tMs frag) k (r.wf_push tMs frag hw) (r.pending_push tMs frag hpend)
        (r.known_push seen tMs frag hw hknown)
  | again seen tMs frag trace trace' hseen _ ih =>
      intro r k hw hpend hknown
      -- The repeat moves the second run by its count and the first run not at all.
      rcases r.push_known seen tMs frag hw hpend hknown hseen with ⟨j, hj⟩
      have hmore : (r.addStale j).addStale k = r.addStale (j + k) := by
        simp only [addStale, Nat.add_assoc]
      rw [pushAll_cons, push_addStale, hj, hmore]
      exact ih r (j + k) hw hpend hknown

/-- Inserting repeats of fragments already pushed, at any later positions and
    with any times, leaves the events, the window, `newestComplete`,
    `lastDecoded` and the two loss counters as they are, and can only raise
    the stale count. -/
theorem duplicates_invisible (trace trace' : List (Int64 × Fragment))
    (h : WithRepeats [] trace trace') :
    (new.pushAll trace').events = (new.pushAll trace).events ∧
    (new.pushAll trace').incomplete = (new.pushAll trace).incomplete ∧
    (new.pushAll trace').newestComplete = (new.pushAll trace).newestComplete ∧
    (new.pushAll trace').lastDecoded = (new.pushAll trace).lastDecoded ∧
    (new.pushAll trace').counters.droppedIncomplete =
      (new.pushAll trace).counters.droppedIncomplete ∧
    (new.pushAll trace').counters.discardedGap = (new.pushAll trace).counters.discardedGap ∧
    (new.pushAll trace).counters.staleFragments ≤
      (new.pushAll trace').counters.staleFragments := by
  have hnew : new.addStale 0 = new := rfl
  rcases pushAll_withRepeats [] trace trace' h new 0 wf_new pending_new
    (fun f hf => absurd hf List.not_mem_nil) with ⟨k, hk⟩
  rw [hnew] at hk
  rw [hk]
  exact ⟨rfl, rfl, rfl, rfl, rfl, rfl, Nat.le_add_right _ _⟩

/-- Frame 1 makes way for frame 3, and frame 2 is swept when frame 3 completes. -/
def lossyTrace : List (Int64 × Fragment) :=
  [(0, ⟨1, 0, 2, true⟩), (1, ⟨2, 0, 2, false⟩), (2, ⟨3, 0, 2, true⟩), (3, ⟨3, 1, 2, true⟩)]

/-- The same, with a fragment repeated that is in flight, one of the evicted frame, one of
    the swept frame and one of the completed frame. -/
def lossyRepeats : List (Int64 × Fragment) :=
  [(0, ⟨1, 0, 2, true⟩), (0, ⟨1, 0, 2, true⟩), (1, ⟨2, 0, 2, false⟩), (2, ⟨3, 0, 2, true⟩),
    (2, ⟨1, 0, 2, true⟩), (3, ⟨3, 1, 2, true⟩), (4, ⟨2, 0, 2, false⟩), (5, ⟨3, 0, 2, true⟩)]

theorem duplicates_invisible_lossy :
    ((new.pushAll lossyTrace).counters.droppedIncomplete = 2 ∧
      (new.pushAll lossyRepeats).counters.staleFragments = 3) ∧
    (new.pushAll lossyRepeats).events = (new.pushAll lossyTrace).events ∧
    (new.pushAll lossyRepeats).incomplete = (new.pushAll lossyTrace).incomplete ∧
    (new.pushAll lossyRepeats).newestComplete = (new.pushAll lossyTrace).newestComplete ∧
    (new.pushAll lossyRepeats).counters.droppedIncomplete =
      (new.pushAll lossyTrace).counters.droppedIncomplete := by
  have hrepeats : WithRepeats [] lossyTrace lossyRepeats :=
    .push [] 0 _ _ _ (.again _ 0 _ _ _ (by decide) (.push _ 1 _ _ _ (.push _ 2 _ _ _
      (.again _ 2 _ _ _ (by decide) (.push _ 3 _ _ _ (.again _ 4 _ _ _ (by decide)
        (.again _ 5 _ _ _ (by decide) (.nil _))))))))
  rcases duplicates_invisible lossyTrace lossyRepeats hrepeats with
    ⟨hevents, hincomplete, hnewest, -, hdropped, -, -⟩
  exact ⟨⟨by decide, by decide⟩, hevents, hincomplete, hnewest, hdropped⟩

end Reassembler

end Reassembly

end LoomHost
