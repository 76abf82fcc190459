import LoomHost.Theory.Reassembly.Push

/-!
# The Entries of the Window

What a push does to the entries of the window, one by one. An entry that is
there after a push was there before it, or belongs to the fragment's frame and
has just received it. So an entry only ever gains indices, and it is pending:
a push that fills an entry removes it.

## Main definitions

* `opening`: The entry a fragment opens for its frame.
* `Pending`: No entry of the window is full.

## Theorems

* `prepare_entry`: Where an entry comes from after an admission.
* `push_entry`: Where an entry comes from after a push.
* `pending_push`: A push leaves no full entry behind.
-/

namespace LoomHost

namespace Reassembly

/-- The entry a fragment opens for its frame. -/
def opening (frag : Fragment) : Incomplete :=
  { need := frag.fragCount, got := ∅, keyframe := frag.keyframe }

@[simp] theorem Incomplete.receive_got (e : Incomplete) (frag : Fragment) :
    (e.receive frag).got = insert frag.fragIndex e.got := rfl

@[simp] theorem Incomplete.receive_need (e : Incomplete) (frag : Fragment) :
    (e.receive frag).need = e.need := rfl

@[simp] theorem Incomplete.receive_keyframe (e : Incomplete) (frag : Fragment) :
    (e.receive frag).keyframe = e.keyframe := rfl

/-- An index that is already there changes nothing. -/
theorem Incomplete.receive_of_mem (e : Incomplete) (frag : Fragment) (h : frag.fragIndex ∈ e.got) :
    e.receive frag = e := by
  rw [receive, Finset.insert_eq_of_mem h]

namespace Reassembler

/-- After an admission an entry is an old one, or the one just opened. -/
theorem prepare_entry (r : Reassembler) (frag : Fragment) (a : Admission)
    (h : r.admission frag = some a) (s : UInt32) (e : Incomplete)
    (he : (r.prepare frag a).incomplete[s]? = some e) :
    r.incomplete[s]? = some e ∨
      (s = frag.frameSeq ∧ frag.frameSeq ∉ r.incomplete ∧ e = opening frag) := by
  cases r.admission_spec frag a h with
  | old _ => exact Or.inl he
  | below _ _ _ _ => exact Or.inl he
  | present _ _ => exact Or.inl he
  | opened _ hmem _ =>
      have he' : (r.insert frag).incomplete[s]? = some e := he
      rw [getElem?_insert] at he'
      split_ifs at he' with hs
      · exact Or.inr ⟨hs, hmem, (Option.some.inj he').symm⟩
      · exact Or.inl he'
  | evicting oldest _ hmem _ _ _ _ =>
      have he' : ((r.evict oldest).insert frag).incomplete[s]? = some e := he
      rw [getElem?_insert, getElem?_evict] at he'
      split_ifs at he' with hs hold
      · exact Or.inr ⟨hs, hmem, (Option.some.inj he').symm⟩
      · exact Or.inl he'

/-- After a push an entry is an old one, or that of the fragment's frame, which
    has just received it and is not full. -/
theorem push_entry (r : Reassembler) (tMs : Int64) (frag : Fragment) (s : UInt32) (e' : Incomplete)
    (he : (r.push tMs frag).incomplete[s]? = some e') :
    r.incomplete[s]? = some e' ∨
      (s = frag.frameSeq ∧ e'.got.card ≠ e'.need.toNat ∧
        ∃ e, e' = e.receive frag ∧
          (r.incomplete[s]? = some e ∨ (s ∉ r.incomplete ∧ e = opening frag))) := by
  have hcases := r.push_cases tMs frag
  generalize r.push tMs frag = r' at hcases he
  cases hcases with
  | stale hadm => exact Or.inl he
  | pending a e hadm hne hentry hcard =>
      rw [getElem?_store] at he
      split_ifs at he with hs
      · subst hs
        rw [← Option.some.inj he]
        refine Or.inr ⟨rfl, hcard, e, rfl, ?_⟩
        rcases r.prepare_entry frag a hadm _ e hentry with hold | ⟨_, hmem, hopen⟩
        · exact Or.inl hold
        · exact Or.inr ⟨hmem, hopen⟩
      · -- Another frame's entry is not the one just opened.
        rcases r.prepare_entry frag a hadm s e' he with hold | ⟨hs', _, _⟩
        · exact Or.inl hold
        · exact absurd hs' hs
  | completed a e hadm hne hentry hcard =>
      rw [gate_incomplete, getElem?_sweep] at he
      split_ifs at he with hlt
      rcases r.prepare_entry frag a hadm s e' he with hold | ⟨hs, _, _⟩
      · exact Or.inl hold
      · -- The completed frame has no entry left.
        subst hs
        exact absurd hlt (not_lt_of_ge (le_max_right _ _))

/-- A fresh reassembler has no entries. -/
theorem not_entry_new (s : UInt32) (e : Incomplete) : new.incomplete[s]? ≠ some e := by
  rw [new, Std.ExtTreeMap.getElem?_empty]
  simp only [ne_eq, reduceCtorEq, not_false_eq_true]

/-- No entry of the window is full. -/
def Pending (r : Reassembler) : Prop :=
  ∀ (s : UInt32) (e : Incomplete), r.incomplete[s]? = some e → e.got.card ≠ e.need.toNat

theorem pending_new : Pending new :=
  fun s e he => absurd he (not_entry_new s e)

theorem pending_push (r : Reassembler) (tMs : Int64) (frag : Fragment) (hr : Pending r) :
    Pending (r.push tMs frag) := by
  intro s e he
  rcases r.push_entry tMs frag s e he with hold | ⟨_, hcard, _⟩
  · exact hr s e hold
  · exact hcard

end Reassembler

end Reassembly

end LoomHost
