import LoomHost.Core.Streams

/-!
# The Streams That Are Resolved

What `resolveStreams` promises of the streams of a host: there is one, they are
numbered 0, 2, 3 and so on, and their sizes fit in 32 bits. Up to 65535 streams
the numbers are distinct, since they are 16 bits wide.

## Main definitions

* `streamNumber`: The number of a stream.
* `Resolved`: What is promised.

## Theorems

* `resolved_of_ok`: The streams of `resolveStreams`.
* `Resolved.distinct`: The numbers are distinct, and none is that of audio.
-/

namespace LoomHost

namespace Streams

open Session Conn

/-- The number of stream `i`, in the order of the streams. -/
def streamNumber (i : ℕ) : UInt16 := if i = 0 then 0 else UInt16.ofNat (i + 1)

/-- What is promised of the streams of a host. -/
structure Resolved (streams : List StreamSpec) : Prop where
  nonempty : streams ≠ []
  numbers : streams.map StreamSpec.streamId = (List.range streams.length).map streamNumber
  small : ∀ s ∈ streams, s.params.width.toNat < 2 ^ 32 ∧ s.params.height.toNat < 2 ^ 32

section Resolve

/-- A size that was 32 bits wide fits in 32 bits. -/
theorem toNat_toUInt64_lt (n : UInt32) : n.toUInt64.toNat < 2 ^ 32 := by
  rw [UInt32.toNat_toUInt64]
  exact n.toNat_lt

/-- The streams of the displays, in their order. -/
theorem resolved_displays (base : MediaParams) (selected : List DisplayInfo)
    (hne : selected ≠ []) : Resolved (selected.mapIdx (displayStream base)) := by
  refine ⟨?_, ?_, fun s hs => ?_⟩
  · rw [ne_eq, List.mapIdx_eq_nil_iff]
    exact hne
  · rw [List.length_mapIdx]
    refine List.ext_getElem ?_ (fun i h₁ h₂ => ?_)
    · rw [List.length_map, List.length_mapIdx, List.length_map, List.length_range]
    · rw [List.getElem_map, List.getElem_mapIdx, List.getElem_map, List.getElem_range]
      rfl
  · rcases List.mem_mapIdx.mp hs with ⟨i, hi, rfl⟩
    exact ⟨toNat_toUInt64_lt _, toNat_toUInt64_lt _⟩

/-- What `resolveStreams` returns is as promised. -/
theorem resolved_of_ok (macos : Bool) (displays : Except String (List DisplayInfo)) (args : Args)
    (streams : List StreamSpec) (h : resolveStreams macos displays args = .ok streams) :
    Resolved streams := by
  unfold resolveStreams at h
  dsimp only at h
  split at h
  · -- The one stream of the arguments themselves.
    cases h
    refine ⟨List.cons_ne_nil _ _, rfl, fun s hs => ?_⟩
    rw [List.mem_singleton.mp hs]
    exact ⟨toNat_toUInt64_lt _, toNat_toUInt64_lt _⟩
  split at h
  · split at h
    · cases h
    split at h
    · cases h
    split at h
    · cases h
    · -- Some displays are selected, and one at least.
      rename_i selected hselected
      split at h
      · cases h
      · rename_i hne
        cases h
        exact resolved_displays _ selected (fun hnil => hne (List.isEmpty_iff.mpr hnil))
  · cases h

end Resolve

section Numbers

theorem toNat_streamNumber {i : ℕ} (hi : i < 65535) :
    (streamNumber i).toNat = if i = 0 then 0 else i + 1 := by
  unfold streamNumber
  by_cases hzero : i = 0
  · rw [if_pos hzero, if_pos hzero]
    rfl
  · rw [if_neg hzero, if_neg hzero]
    exact UInt16.toNat_ofNat_of_lt (by simp only [UInt16.size]; omega)

variable {streams : List StreamSpec}

/-- The first stream is number 0. -/
theorem Resolved.head (h : Resolved streams) :
    (streams.head h.nonempty).streamId = 0 := by
  have hnumbers := h.numbers
  cases streams with
  | nil => exact absurd rfl h.nonempty
  | cons s streams =>
      rw [List.length_cons, List.range_succ_eq_map] at hnumbers
      exact (List.cons.inj hnumbers).1

/-- Up to 65535 streams the numbers are distinct, and none is that of audio. -/
theorem Resolved.distinct (h : Resolved streams) (hfew : streams.length ≤ 65535) :
    (streams.map StreamSpec.streamId).Nodup ∧ 1 ∉ streams.map StreamSpec.streamId := by
  have hlt {i : ℕ} (hi : i ∈ List.range streams.length) : i < 65535 :=
    (List.mem_range.mp hi).trans_le hfew
  rw [h.numbers]
  constructor
  · refine List.Nodup.map_on (fun i hi j hj hsame => ?_) List.nodup_range
    -- The numbers do not wrap below 65535, so the places are the same.
    have hnat := congrArg UInt16.toNat hsame
    rw [toNat_streamNumber (hlt hi), toNat_streamNumber (hlt hj)] at hnat
    split_ifs at hnat <;> omega
  · intro hone
    rcases List.mem_map.mp hone with ⟨i, hi, hnumber⟩
    have hnat := congrArg UInt16.toNat hnumber
    rw [toNat_streamNumber (hlt hi)] at hnat
    split_ifs at hnat with hzero
    · cases hnat
    · exact hzero (Nat.succ.inj hnat)

end Numbers

end Streams

end LoomHost
