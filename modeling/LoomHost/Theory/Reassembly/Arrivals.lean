import LoomHost.Core.Reassembly

/-!
# What Has Arrived of a Frame

A run of frames as their sender cut them, and what of it is in a trace: which
frames have started, which indices have come of them, which of them are whole.
`Continues` is the condition on the network, that it keeps the frames of a run
apart, and `NotOvertaken` excludes the one arrival for which that is not enough.

## Main definitions

* `FrameRun`: Consecutive frames as their sender cut them.
* `Started`, `Whole`, `InFlight`: What has arrived of a frame.
* `Continues`: The network keeps the frames of a run apart.
* `NotOvertaken`: No single-fragment frame arrives behind two later ones.

## Theorems

* `indices_concat_self`, `indices_concat_of_ne`: One more arrival.
* `card_eq_iff_covers`: A set of small indices is full iff it has them all.
-/

namespace LoomHost

namespace Reassembly

/-- Consecutive frames `first, first + 1, …, first + more`, as their sender cut
    them: a fragment count and a keyframe flag for each. -/
structure FrameRun where
  first : ℕ
  more : ℕ
  count : ℕ → UInt16
  keyframe : ℕ → Bool

/-- Some fragment of the frame has arrived. -/
def Started (p : List (Int64 × Fragment)) (n : ℕ) : Prop :=
  ∃ x ∈ p, x.2.frameSeq.toNat = n

instance (p : List (Int64 × Fragment)) (n : ℕ) : Decidable (Started p n) :=
  inferInstanceAs (Decidable (∃ x ∈ p, x.2.frameSeq.toNat = n))

/-- The indices of a frame that have arrived. -/
def indices (p : List (Int64 × Fragment)) (n : ℕ) : Finset UInt16 :=
  ((p.filter fun x => x.2.frameSeq.toNat = n).map fun x => x.2.fragIndex).toFinset

namespace FrameRun

variable (f : FrameRun)

/-- Every fragment of the frame has arrived. -/
def Whole (p : List (Int64 × Fragment)) (n : ℕ) : Prop :=
  ∀ i, i < (f.count n).toNat → ∃ x ∈ p, x.2.frameSeq.toNat = n ∧ x.2.fragIndex.toNat = i

instance (p : List (Int64 × Fragment)) (n : ℕ) : Decidable (f.Whole p n) :=
  inferInstanceAs (Decidable (∀ i, i < (f.count n).toNat →
    ∃ x ∈ p, x.2.frameSeq.toNat = n ∧ x.2.fragIndex.toNat = i))

/-- A frame of the run is started but incomplete. -/
def InFlight (p : List (Int64 × Fragment)) (n : ℕ) : Prop :=
  f.first ≤ n ∧ Started p n ∧ ¬ f.Whole p n

instance (p : List (Int64 × Fragment)) (n : ℕ) : Decidable (f.InFlight p n) :=
  inferInstanceAs (Decidable (f.first ≤ n ∧ Started p n ∧ ¬ f.Whole p n))

/-- A trace contains every fragment of the frames of a run, with any
    duplicates and any fragments of older frames between them; the frames
    complete in increasing order, and never more than two of them are in
    flight. -/
structure Continues (c : List (Int64 × Fragment)) : Prop where
  first_key : f.keyframe f.first = true
  positive : ∀ n, f.first ≤ n → n ≤ f.first + f.more → 1 ≤ (f.count n).toNat
  frags : ∀ x ∈ c, x.2.frameSeq.toNat < f.first ∨
    (x.2.frameSeq.toNat ≤ f.first + f.more ∧
      x.2.fragCount = f.count x.2.frameSeq.toNat ∧
      x.2.keyframe = f.keyframe x.2.frameSeq.toNat ∧
      x.2.fragIndex.toNat < (f.count x.2.frameSeq.toNat).toNat)
  whole : ∀ n, f.first ≤ n → n ≤ f.first + f.more → f.Whole c n
  in_order : ∀ p s, c = p ++ s → ∀ n, f.first ≤ n → n < f.first + f.more →
    f.Whole p (n + 1) → f.Whole p n
  window : ∀ p s, c = p ++ s → ∀ S : Finset ℕ, (∀ n ∈ S, f.InFlight p n) → S.card ≤ 2

/-- A fragment of the trace that is not older than the run belongs to it. -/
theorem Continues.le_of_mem {f : FrameRun} {c : List (Int64 × Fragment)} (hc : f.Continues c)
    (x : Int64 × Fragment) (hx : x ∈ c) (hlo : f.first ≤ x.2.frameSeq.toNat) :
    x.2.frameSeq.toNat ≤ f.first + f.more := by
  rcases hc.frags x hx with hlt | ⟨hle, _⟩
  · omega
  · exact hle

/-- Only frames of the run are ever in flight. -/
theorem Continues.le_of_inFlight {f : FrameRun} {c p s : List (Int64 × Fragment)} {n : ℕ}
    (hc : f.Continues c) (hp : c = p ++ s) (h : f.InFlight p n) : n ≤ f.first + f.more := by
  rcases h with ⟨hlo, ⟨y, hy, rfl⟩, _⟩
  exact hc.le_of_mem y (hp ▸ List.mem_append_left _ hy) hlo

/-- No frame of a single fragment arrives for the first time while two later
    frames are in flight. -/
def NotOvertaken (c : List (Int64 × Fragment)) : Prop :=
  ∀ p x s, c = p ++ x :: s → f.first ≤ x.2.frameSeq.toNat →
    f.count x.2.frameSeq.toNat = 1 → ¬ Started p x.2.frameSeq.toNat →
    ∀ a b, a ≠ b → x.2.frameSeq.toNat < a → x.2.frameSeq.toNat < b →
      ¬ (f.InFlight p a ∧ f.InFlight p b)

/-- The entry a frame of the run has once the fragments of `p` have arrived. -/
def entryOf (p : List (Int64 × Fragment)) (n : ℕ) : Incomplete :=
  { need := f.count n, got := indices p n, keyframe := f.keyframe n }

end FrameRun

section Arrivals

variable (f : FrameRun) (p : List (Int64 × Fragment)) (x : Int64 × Fragment)

theorem started_concat (n : ℕ) :
    Started (p ++ [x]) n ↔ Started p n ∨ x.2.frameSeq.toNat = n := by
  constructor
  · rintro ⟨y, hy, hn⟩
    rcases List.mem_append.mp hy with hy | hy
    · exact Or.inl ⟨y, hy, hn⟩
    · rw [List.mem_singleton] at hy
      exact Or.inr (hy ▸ hn)
  · rintro (⟨y, hy, hn⟩ | hn)
    · exact ⟨y, List.mem_append_left _ hy, hn⟩
    · exact ⟨x, List.mem_append_right _ List.mem_cons_self, hn⟩

theorem whole_concat_of_ne (n : ℕ) (h : x.2.frameSeq.toNat ≠ n) :
    f.Whole (p ++ [x]) n ↔ f.Whole p n := by
  constructor
  · intro hw i hi
    rcases hw i hi with ⟨y, hy, hn, hidx⟩
    rcases List.mem_append.mp hy with hy | hy
    · exact ⟨y, hy, hn, hidx⟩
    · rw [List.mem_singleton] at hy
      exact absurd (hy ▸ hn) h
  · intro hw i hi
    rcases hw i hi with ⟨y, hy, hn, hidx⟩
    exact ⟨y, List.mem_append_left _ hy, hn, hidx⟩

theorem whole_concat_of_whole (n : ℕ) (h : f.Whole p n) : f.Whole (p ++ [x]) n := by
  intro i hi
  rcases h i hi with ⟨y, hy, hn, hidx⟩
  exact ⟨y, List.mem_append_left _ hy, hn, hidx⟩

theorem mem_indices (n : ℕ) (i : UInt16) :
    i ∈ indices p n ↔ ∃ y ∈ p, y.2.frameSeq.toNat = n ∧ y.2.fragIndex = i := by
  simp only [indices, List.mem_toFinset, List.mem_map, List.mem_filter, decide_eq_true_eq,
    and_assoc]

theorem indices_concat_self (n : ℕ) (h : x.2.frameSeq.toNat = n) :
    indices (p ++ [x]) n = insert x.2.fragIndex (indices p n) := by
  ext i
  rw [Finset.mem_insert, mem_indices, mem_indices]
  constructor
  · rintro ⟨y, hy, hn, hi⟩
    rcases List.mem_append.mp hy with hy | hy
    · exact Or.inr ⟨y, hy, hn, hi⟩
    · rw [List.mem_singleton] at hy
      exact Or.inl (hy ▸ hi.symm)
  · rintro (hi | ⟨y, hy, hn, hi⟩)
    · exact ⟨x, List.mem_append_right _ List.mem_cons_self, h, hi.symm⟩
    · exact ⟨y, List.mem_append_left _ hy, hn, hi⟩

theorem indices_concat_of_ne (n : ℕ) (h : x.2.frameSeq.toNat ≠ n) :
    indices (p ++ [x]) n = indices p n := by
  ext i
  rw [mem_indices, mem_indices]
  constructor
  · rintro ⟨y, hy, hn, hi⟩
    rcases List.mem_append.mp hy with hy | hy
    · exact ⟨y, hy, hn, hi⟩
    · rw [List.mem_singleton] at hy
      exact absurd (hy ▸ hn) h
  · rintro ⟨y, hy, hn, hi⟩
    exact ⟨y, List.mem_append_left _ hy, hn, hi⟩

theorem indices_eq_empty (n : ℕ) (h : ¬ Started p n) : indices p n = ∅ := by
  rw [Finset.eq_empty_iff_forall_notMem]
  intro i hi
  rcases (mem_indices p n i).mp hi with ⟨y, hy, hn, _⟩
  exact h ⟨y, hy, hn⟩

end Arrivals

/-- A set of indices below `k` has `k` members iff it has every one of them. -/
theorem card_eq_iff_covers (S : Finset UInt16) (k : ℕ) (h : ∀ i ∈ S, i.toNat < k) :
    S.card = k ↔ ∀ i, i < k → ∃ j ∈ S, j.toNat = i := by
  have hcard : (S.image UInt16.toNat).card = S.card :=
    Finset.card_image_of_injective _ (fun a b hab => UInt16.toNat_inj.mp hab)
  have hsub : S.image UInt16.toNat ⊆ Finset.range k := by
    intro i hi
    rcases Finset.mem_image.mp hi with ⟨j, hj, rfl⟩
    exact Finset.mem_range.mpr (h j hj)
  constructor
  · intro hk i hi
    have heq : S.image UInt16.toNat = Finset.range k :=
      Finset.eq_of_subset_of_card_le hsub (by rw [hcard, Finset.card_range, hk])
    exact Finset.mem_image.mp (heq ▸ Finset.mem_range.mpr hi)
  · intro hcov
    have heq : S.image UInt16.toNat = Finset.range k := by
      refine Finset.Subset.antisymm hsub (fun i hi => ?_)
      exact Finset.mem_image.mpr (hcov i (Finset.mem_range.mp hi))
    rw [← hcard, heq, Finset.card_range]

end Reassembly

end LoomHost
