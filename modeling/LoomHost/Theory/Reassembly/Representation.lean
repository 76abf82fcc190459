import Mathlib.Algebra.Order.BigOperators.Group.List
import Mathlib.Algebra.Order.Ring.Nat
import LoomHost.Theory.Reassembly.Chain
import LoomHost.Theory.Reassembly.Entries

/-!
# The Representation of the Reassembler

What the fields of a reassembler may hold after any trace. The window has at
most two frames, all of them newer than the newest completed one, and the last
frame decoded is not. Every frame in flight has received something and lacks
something.

The last part is what the test for completion rests on. It asks whether a frame
has exactly as many indices as it needs, so a frame that ever had more could
never complete. A fragment adds at most one index, and a frame that has all it
needs leaves the window in the same push, so the count cannot be stepped over.
A fragment that says it is one of none opens an entry that is past its count at
once, hence the bound on the counts of the trace.

## Main definitions

* `Short`: Every entry has at least one index and fewer than it needs.
* `Represented`: The representation invariant.
* `stored`: The number of indices in the window.

## Theorems

* `short_push`: A fragment of a frame of at least one fragment keeps `Short`.
* `foldlM_push?`: A trace reaches no `expect` failure.
* `stored_le`: The window holds two frames' worth of indices.
* `pushAll_represented`: Every trace leads to a represented state.
-/

namespace LoomHost

namespace Reassembly

namespace Reassembler

/-- Every entry has at least one index and fewer than it needs. -/
def Short (r : Reassembler) : Prop :=
  ∀ (s : UInt32) (e : Incomplete), r.incomplete[s]? = some e →
    1 ≤ e.got.card ∧ e.got.card < e.need.toNat

/-- The representation invariant. -/
structure Represented (r : Reassembler) : Prop where
  window : r.incomplete.size ≤ 2
  newer : ∀ s ∈ r.incomplete, r.newestComplete < s.toNat
  decoded : ∀ n, r.lastDecoded = some n → n ≤ r.newestComplete
  short : Short r

/-- The number of indices in the window. -/
def stored (r : Reassembler) : ℕ :=
  (r.incomplete.toList.map fun x => x.2.got.card).sum

section Entries

theorem short_new : Short new :=
  fun s e he => absurd he (not_entry_new s e)

/-- One more index leaves an entry short, or fills it. -/
theorem card_receive_le (e : Incomplete) (frag : Fragment) (h : e.got.card < e.need.toNat) :
    1 ≤ (e.receive frag).got.card ∧ (e.receive frag).got.card ≤ e.need.toNat := by
  rw [Incomplete.receive_got]
  have hle := Finset.card_insert_le frag.fragIndex e.got
  have hpos := Finset.card_pos.mpr (Finset.insert_nonempty frag.fragIndex e.got)
  exact ⟨hpos, by omega⟩

theorem short_push (r : Reassembler) (tMs : Int64) (frag : Fragment) (hr : Short r)
    (hcount : 1 ≤ frag.fragCount) : Short (r.push tMs frag) := by
  intro s e he
  rcases r.push_entry tMs frag s e he with hold | ⟨-, hcard, e', rfl, hprev⟩
  · exact hr s e hold
  · -- The entry the fragment found was short, be it an old one or an empty one.
    have hshort : e'.got.card < e'.need.toNat := by
      rcases hprev with hold | ⟨-, rfl⟩
      · exact (hr s e' hold).2
      · exact UInt16.le_iff_toNat_le.mp hcount
    rcases card_receive_le e' frag hshort with ⟨hpos, hle⟩
    rw [Incomplete.receive_need] at hcard ⊢
    exact ⟨hpos, by omega⟩

theorem short_pushAll (trace : List (Int64 × Fragment)) :
    ∀ r : Reassembler, Short r → (∀ x ∈ trace, 1 ≤ x.2.fragCount) →
      Short (r.pushAll trace) := by
  induction trace with
  | nil => exact fun r hr _ => hr
  | cons x rest ih =>
      intro r hr hcounts
      exact ih _ (short_push r x.1 x.2 hr (hcounts x List.mem_cons_self))
        (fun y hy => hcounts y (List.mem_cons_of_mem _ hy))

end Entries

section Runs

/-- No push of a trace reaches an `expect` failure. -/
theorem foldlM_push? (trace : List (Int64 × Fragment)) :
    ∀ r : Reassembler,
      trace.foldlM (fun r x => r.push? x.1 x.2) r = some (r.pushAll trace) := by
  induction trace with
  | nil => exact fun r => rfl
  | cons x rest ih =>
      intro r
      rw [List.foldlM_cons, push?_eq, pushAll_cons]
      exact ih _

/-- A well-formed window has at most two frames, newer than the newest completed
    one. -/
theorem window_of_wf (r : Reassembler) (hw : Window.Wf 2 r.slots) :
    r.incomplete.size ≤ 2 ∧ ∀ s ∈ r.incomplete, r.newestComplete < s.toNat := by
  refine ⟨r.card_live ▸ hw.bounded, fun s hs => ?_⟩
  have hfresh := hw.fresh s.toNat ((r.mem_live s).mpr hs)
  rw [mem_done] at hfresh
  omega

theorem represented_pushAll (trace : List (Int64 × Fragment))
    (hcounts : ∀ x ∈ trace, 1 ≤ x.2.fragCount) : Represented (new.pushAll trace) := by
  rcases window_of_wf _ (wf_pushAll new trace wf_new) with ⟨hwindow, hnewer⟩
  exact ⟨hwindow, hnewer, (gated_pushAll trace).bound, short_pushAll trace new short_new hcounts⟩

/-- Two frames, each short of at most `u16::MAX` indices. -/
theorem stored_le (r : Reassembler) (hr : Represented r) : r.stored ≤ 2 * 65534 := by
  have hentries : ∀ n ∈ r.incomplete.toList.map (fun x => x.2.got.card), n ≤ 65534 := by
    intro n hn
    rcases List.mem_map.mp hn with ⟨x, hx, rfl⟩
    have hget := Std.ExtTreeMap.mem_toList_iff_getElem?_eq_some.mp hx
    have hlt := (hr.short x.1 x.2 hget).2
    have := x.2.need.toNat_lt
    omega
  have hsum : r.stored ≤ r.incomplete.size * 65534 := by
    have h := List.sum_le_card_nsmul _ 65534 hentries
    rw [List.length_map, Std.ExtTreeMap.length_toList, Nat.nsmul_eq_mul] at h
    exact h
  exact le_trans hsum (Nat.mul_le_mul_right 65534 hr.window)

/-- After every sequence of pushes of fragments of at least one: no `expect` has
    failed, the window has at most two frames, each newer than the newest
    completed one, the last frame decoded is not newer, and every entry has
    received an index and lacks one. What is stored is bounded. -/
theorem pushAll_represented (trace : List (Int64 × Fragment))
    (hcounts : ∀ x ∈ trace, 1 ≤ x.2.fragCount) :
    ∃ r, trace.foldlM (fun r x => r.push? x.1 x.2) new = some r ∧
      Represented r ∧ r.stored ≤ 2 * 65534 :=
  have hrep := represented_pushAll trace hcounts
  ⟨new.pushAll trace, foldlM_push? trace new, hrep, stored_le _ hrep⟩

/-- Fragments of four frames: the second frame completes, and two newer ones are
    left in flight. -/
theorem pushAll_represented_four :
    ∃ r, [((0 : Int64), (⟨0, 0, 2, true⟩ : Fragment)), (1, ⟨1, 0, 2, true⟩), (2, ⟨1, 1, 2, true⟩),
        (3, ⟨2, 0, 3, false⟩), (4, ⟨3, 1, 2, false⟩)].foldlM
          (fun r x => r.push? x.1 x.2) new = some r ∧
      Represented r ∧ r.stored ≤ 2 * 65534 :=
  pushAll_represented _ (by decide)

end Runs

end Reassembler

end Reassembly

end LoomHost
