import LoomHost.Core.Reassembly
import LoomHost.Lib.Window

/-!
# What One Push Does

Every later argument about the reassembler is an induction over a trace, and
each needs to know what one push can do and nothing else. `push_cases` says
it: the fragment is dropped as stale, or it enters its frame's entry and
leaves it pending, or it completes the frame. The three outcomes are the three
constructors of `Pushed`, with the admission that led there and the entry the
fragment found.

The window of the state is read as a bounded in-flight window over the frame
numbers, `slots`, of capacity two. An admission and a sweep are steps of that
window, so every push is a path (`push_reaches`), and what holds along paths of
windows holds along traces.

## Main definitions

* `prepare`: The state after an admission, before the fragment enters.
* `store`: The state after the fragment has entered a pending entry.
* `Pushed`: What one push can do.
* `slots`: The in-flight window of a state.

## Theorems

* `push_cases`: A push does one of three things.
* `push_of_entry`: Which one, once the admission and the entry are known.
* `getElem?_sweep`: Rule-1 cleanup keeps the frames above the newest.
* `size_sweep`: Rule-1 cleanup counts the frames it removes.
* `stale_iff_shut`: A fragment is stale iff its frame is shut.
* `push_reaches`, `pushAll_reaches`: A push and a trace are paths of the
  window.
* `settled_push`: A fragment leaves its frame in flight or shut.
-/

namespace LoomHost

namespace Reassembly

namespace Reassembler

/-- The state after an admission, before the fragment enters its entry. -/
def prepare (r : Reassembler) (frag : Fragment) : Admission → Reassembler
  | .stale => r
  | .present => r
  | .opened => r.insert frag
  | .evicting oldest => (r.evict oldest).insert frag

/-- The state after a fragment has entered a pending entry. -/
def store (r : Reassembler) (frag : Fragment) (e : Incomplete) : Reassembler :=
  { r with incomplete := r.incomplete.insert frag.frameSeq (e.receive frag) }

/-- What each admission says about the fragment and the window. -/
inductive Admitted (r : Reassembler) (frag : Fragment) : Admission → Prop
  | old (hle : (frag.frameSeq.toNat : Int) ≤ r.newestComplete) : Admitted r frag .stale
  | below (hlt : r.newestComplete < frag.frameSeq.toNat) (hmem : frag.frameSeq ∉ r.incomplete)
      (hfull : 2 ≤ r.incomplete.size)
      (hbelow : ∀ x ∈ r.incomplete, frag.frameSeq.toNat < x.toNat) : Admitted r frag .stale
  | present (hlt : r.newestComplete < frag.frameSeq.toNat)
      (hmem : frag.frameSeq ∈ r.incomplete) : Admitted r frag .present
  | opened (hlt : r.newestComplete < frag.frameSeq.toNat) (hmem : frag.frameSeq ∉ r.incomplete)
      (hroom : r.incomplete.size < 2) : Admitted r frag .opened
  | evicting (oldest : UInt32) (hlt : r.newestComplete < frag.frameSeq.toNat)
      (hmem : frag.frameSeq ∉ r.incomplete) (hfull : 2 ≤ r.incomplete.size)
      (hold : oldest ∈ r.incomplete) (hmin : ∀ x ∈ r.incomplete, oldest.toNat ≤ x.toNat)
      (hnewer : oldest.toNat < frag.frameSeq.toNat) : Admitted r frag (.evicting oldest)

/-- The head of the key list is the least key. -/
theorem head?_keys_le (r : Reassembler) (oldest : UInt32)
    (h : r.incomplete.keys.head? = some oldest) :
    oldest ∈ r.incomplete ∧ ∀ x ∈ r.incomplete, oldest.toNat ≤ x.toNat := by
  rcases List.head?_eq_some_iff.mp h with ⟨rest, hkeys⟩
  have hord := Std.ExtTreeMap.ordered_keys (t := r.incomplete)
  rw [hkeys, List.pairwise_cons] at hord
  refine ⟨?_, fun x hx => ?_⟩
  · rw [← Std.ExtTreeMap.mem_keys, hkeys]
    exact List.mem_cons_self
  · rw [← Std.ExtTreeMap.mem_keys, hkeys, List.mem_cons] at hx
    rcases hx with rfl | hx
    · exact le_refl _
    · have hlt : oldest < x := Std.compare_eq_lt.mp (hord.1 x hx)
      exact le_of_lt (UInt32.lt_iff_toNat_lt.mp hlt)

/-- Only a stale fragment is at or below the newest completed frame. -/
theorem Admitted.newest_lt {r : Reassembler} {frag : Fragment} {a : Admission}
    (h : r.Admitted frag a) (hne : a ≠ .stale) : r.newestComplete < frag.frameSeq.toNat := by
  cases h with
  | old _ => exact absurd rfl hne
  | below _ _ _ _ => exact absurd rfl hne
  | present hlt _ => exact hlt
  | opened hlt _ _ => exact hlt
  | evicting _ hlt _ _ _ _ _ => exact hlt

theorem admission_spec (r : Reassembler) (frag : Fragment) (a : Admission)
    (h : r.admission frag = some a) : Admitted r frag a := by
  unfold admission at h
  split_ifs at h with hstale hmem hfull
  · rw [← Option.some.inj h]
    exact Admitted.old hstale
  · rw [← Option.some.inj h]
    exact Admitted.present (by omega) hmem
  · -- The window is full, so the oldest entry decides: it makes way for a newer
    -- frame, and an older one is stale.
    rcases Option.map_eq_some_iff.mp h with ⟨oldest, hhead, ha⟩
    rcases r.head?_keys_le oldest hhead with ⟨hold, hmin⟩
    by_cases hlt : oldest < frag.frameSeq
    · rw [← ha, if_pos hlt]
      exact Admitted.evicting oldest (by omega) hmem hfull hold hmin (UInt32.lt_iff_toNat_lt.mp hlt)
    · rw [← ha, if_neg hlt]
      -- Not newer and not the oldest itself, which is in flight.
      refine Admitted.below (by omega) hmem hfull (fun x hx => ?_)
      have hle : frag.frameSeq.toNat ≤ oldest.toNat :=
        Nat.le_of_not_lt (fun hc => hlt (UInt32.lt_iff_toNat_lt.mpr hc))
      have hne : frag.frameSeq.toNat ≠ oldest.toNat :=
        fun hc => hmem (UInt32.toNat_inj.mp hc ▸ hold)
      have := hmin x hx
      omega
  · rw [← Option.some.inj h]
    exact Admitted.opened (by omega) hmem (by omega)

/-- What one push can do. -/
inductive Pushed (r : Reassembler) (tMs : Int64) (frag : Fragment) : Reassembler → Prop
  | stale (hadm : r.admission frag = some .stale) :
      Pushed r tMs frag r.dropStale
  | pending (a : Admission) (e : Incomplete) (hadm : r.admission frag = some a)
      (hne : a ≠ .stale) (hentry : (r.prepare frag a).incomplete[frag.frameSeq]? = some e)
      (hcard : (e.receive frag).got.card ≠ e.need.toNat) :
      Pushed r tMs frag ((r.prepare frag a).store frag e)
  | completed (a : Admission) (e : Incomplete) (hadm : r.admission frag = some a)
      (hne : a ≠ .stale) (hentry : (r.prepare frag a).incomplete[frag.frameSeq]? = some e)
      (hcard : (e.receive frag).got.card = e.need.toNat) :
      Pushed r tMs frag
        (((r.prepare frag a).sweep frag.frameSeq).gate tMs frag.frameSeq e.keyframe)

theorem accept?_cases (r : Reassembler) (tMs : Int64) (frag : Fragment) (r' : Reassembler)
    (h : r.accept? tMs frag = some r') :
    ∃ e, r.incomplete[frag.frameSeq]? = some e ∧
      (((e.receive frag).got.card ≠ e.need.toNat ∧ r' = r.store frag e) ∨
        ((e.receive frag).got.card = e.need.toNat ∧
          r' = (r.sweep frag.frameSeq).gate tMs frag.frameSeq e.keyframe)) := by
  rw [accept?, Option.map_eq_some_iff] at h
  rcases h with ⟨e, he, hr⟩
  refine ⟨e, he, ?_⟩
  by_cases hcard : (e.receive frag).got.card = e.need.toNat
  · exact Or.inr ⟨hcard, by rw [← hr]; exact if_neg (not_not_intro hcard)⟩
  · exact Or.inl ⟨hcard, by rw [← hr]; exact if_pos hcard⟩

/-- A push drops the fragment, stores it in a pending entry or completes its
    frame, and nothing else. -/
theorem push_cases (r : Reassembler) (tMs : Int64) (frag : Fragment) :
    Pushed r tMs frag (r.push tMs frag) := by
  rcases Option.isSome_iff_exists.mp (r.admission_isSome frag) with ⟨a, ha⟩
  have hpush := r.push?_eq tMs frag
  rw [push?, ha, Option.bind_some] at hpush
  -- A fragment that is not stale goes on to its entry, however it got there.
  have haccept : ∀ b, a = b → b ≠ .stale →
      (r.prepare frag b).accept? tMs frag = some (r.push tMs frag) →
      Pushed r tMs frag (r.push tMs frag) := by
    rintro b rfl hne hacc
    rcases accept?_cases _ tMs frag _ hacc with ⟨e, he, ⟨hcard, hr⟩ | ⟨hcard, hr⟩⟩
    · rw [hr]
      exact Pushed.pending a e ha hne he hcard
    · rw [hr]
      exact Pushed.completed a e ha hne he hcard
  cases a with
  | stale =>
      simp only [Option.some.injEq] at hpush
      rw [← hpush]
      exact Pushed.stale ha
  | present => exact haccept .present rfl Admission.noConfusion hpush
  | opened => exact haccept .opened rfl Admission.noConfusion hpush
  | evicting oldest => exact haccept (.evicting oldest) rfl Admission.noConfusion hpush

/-- A push whose admission and entry are known: whether the entry is full then
    decides. -/
theorem push_of_entry (r : Reassembler) (tMs : Int64) (frag : Fragment) (a : Admission)
    (e : Incomplete) (hadm : r.admission frag = some a) (hne : a ≠ .stale)
    (hentry : (r.prepare frag a).incomplete[frag.frameSeq]? = some e) :
    ((e.receive frag).got.card ≠ e.need.toNat ∧
      r.push tMs frag = (r.prepare frag a).store frag e) ∨
    ((e.receive frag).got.card = e.need.toNat ∧
      r.push tMs frag =
        ((r.prepare frag a).sweep frag.frameSeq).gate tMs frag.frameSeq e.keyframe) := by
  have hcases := r.push_cases tMs frag
  generalize r.push tMs frag = r' at hcases ⊢
  cases hcases with
  | stale hadm' => exact absurd (Option.some.inj (hadm.symm.trans hadm')) hne
  | pending a' e' hadm' hne' hentry' hcard =>
      rw [hadm, Option.some.injEq] at hadm'
      subst hadm'
      rw [hentry, Option.some.injEq] at hentry'
      subst hentry'
      exact Or.inl ⟨hcard, rfl⟩
  | completed a' e' hadm' hne' hentry' hcard =>
      rw [hadm, Option.some.injEq] at hadm'
      subst hadm'
      rw [hentry, Option.some.injEq] at hentry'
      subst hentry'
      exact Or.inr ⟨hcard, rfl⟩

/-- A stale fragment is only counted. -/
theorem push_stale (r : Reassembler) (tMs : Int64) (frag : Fragment)
    (h : r.admission frag = some .stale) : r.push tMs frag = r.dropStale := by
  have hpush := r.push?_eq tMs frag
  rw [push?, h, Option.bind_some, Option.some.injEq] at hpush
  exact hpush.symm

section Fields

variable (r : Reassembler) (tMs : Int64) (frag : Fragment) (seq : UInt32)

@[simp] theorem dropStale_incomplete : r.dropStale.incomplete = r.incomplete := rfl

@[simp] theorem dropStale_newest : r.dropStale.newestComplete = r.newestComplete := rfl

@[simp] theorem dropStale_lastDecoded : r.dropStale.lastDecoded = r.lastDecoded := rfl

@[simp] theorem dropStale_events : r.dropStale.events = r.events := rfl

@[simp] theorem prepare_newest (a : Admission) :
    (r.prepare frag a).newestComplete = r.newestComplete := by cases a <;> rfl

@[simp] theorem prepare_lastDecoded (a : Admission) :
    (r.prepare frag a).lastDecoded = r.lastDecoded := by cases a <;> rfl

@[simp] theorem prepare_events (a : Admission) : (r.prepare frag a).events = r.events := by
  cases a <;> rfl

@[simp] theorem store_newest (e : Incomplete) :
    (r.store frag e).newestComplete = r.newestComplete := rfl

@[simp] theorem store_lastDecoded (e : Incomplete) :
    (r.store frag e).lastDecoded = r.lastDecoded := rfl

@[simp] theorem store_events (e : Incomplete) : (r.store frag e).events = r.events := rfl

@[simp] theorem store_counters (e : Incomplete) : (r.store frag e).counters = r.counters := rfl

@[simp] theorem sweep_newest :
    (r.sweep seq).newestComplete = max r.newestComplete seq.toNat := rfl

@[simp] theorem sweep_lastDecoded : (r.sweep seq).lastDecoded = r.lastDecoded := rfl

@[simp] theorem sweep_events : (r.sweep seq).events = r.events := rfl

@[simp] theorem maybeIdr_newest : (r.maybeIdr tMs).newestComplete = r.newestComplete := by
  unfold maybeIdr
  split <;> [split_ifs <;> rfl; rfl]

@[simp] theorem maybeIdr_incomplete : (r.maybeIdr tMs).incomplete = r.incomplete := by
  unfold maybeIdr
  split <;> [split_ifs <;> rfl; rfl]

@[simp] theorem maybeIdr_lastDecoded : (r.maybeIdr tMs).lastDecoded = r.lastDecoded := by
  unfold maybeIdr
  split <;> [split_ifs <;> rfl; rfl]

@[simp] theorem maybeIdr_counters : (r.maybeIdr tMs).counters = r.counters := by
  unfold maybeIdr
  split <;> [split_ifs <;> rfl; rfl]

@[simp] theorem gate_newest (keyframe : Bool) :
    (r.gate tMs seq keyframe).newestComplete = r.newestComplete := by
  unfold gate
  split_ifs
  · rfl
  · rfl
  · rw [maybeIdr_newest]

@[simp] theorem gate_incomplete (keyframe : Bool) :
    (r.gate tMs seq keyframe).incomplete = r.incomplete := by
  unfold gate
  split_ifs
  · rfl
  · rfl
  · rw [maybeIdr_incomplete]

/-- A keyframe, and a frame right after the last one decoded, is delivered. -/
theorem gate_deliver (keyframe : Bool)
    (h : keyframe = true ∨ r.lastDecoded = some ((seq.toNat : Int) - 1)) :
    r.gate tMs seq keyframe = r.deliver tMs seq keyframe := by
  cases keyframe with
  | true => rw [gate, if_pos rfl]
  | false =>
      rcases h with h | h
      · exact absurd h Bool.false_ne_true
      · rw [gate, if_neg Bool.false_ne_true, if_pos h]

/-- Any other frame is discarded and may raise an IDR request. -/
theorem gate_discard (keyframe : Bool)
    (h : ¬ (keyframe = true ∨ r.lastDecoded = some ((seq.toNat : Int) - 1))) :
    r.gate tMs seq keyframe =
      { r with counters.discardedGap := r.counters.discardedGap + 1 }.maybeIdr tMs := by
  rw [gate, if_neg (fun hk => h (Or.inl hk)), if_neg (fun hl => h (Or.inr hl))]

theorem maybeIdr_events : (r.maybeIdr tMs).events = r.events ∨
    ∃ lastGood, (r.maybeIdr tMs).events = r.events ++ [.IdrRequest tMs lastGood] := by
  unfold maybeIdr
  split
  · split_ifs
    · exact Or.inl rfl
    · exact Or.inr ⟨_, rfl⟩
  · exact Or.inr ⟨_, rfl⟩

end Fields

section Windows

variable (r : Reassembler) (frag : Fragment) (seq : UInt32)

theorem mem_insert (x : UInt32) :
    x ∈ (r.insert frag).incomplete ↔ x = frag.frameSeq ∨ x ∈ r.incomplete :=
  OrdMap.mem_insert_iff _ _ _ _

theorem mem_evict (oldest x : UInt32) :
    x ∈ (r.evict oldest).incomplete ↔ x ≠ oldest ∧ x ∈ r.incomplete :=
  OrdMap.mem_erase_iff _ _ _

theorem getElem?_store (e : Incomplete) (x : UInt32) :
    (r.store frag e).incomplete[x]? =
      if x = frag.frameSeq then some (e.receive frag) else r.incomplete[x]? :=
  OrdMap.lookup_insert _ _ _ _

theorem getElem?_insert (x : UInt32) :
    (r.insert frag).incomplete[x]? =
      if x = frag.frameSeq then some ⟨frag.fragCount, ∅, frag.keyframe⟩
      else r.incomplete[x]? :=
  OrdMap.lookup_insert _ _ _ _

theorem getElem?_evict (oldest x : UInt32) :
    (r.evict oldest).incomplete[x]? = if x = oldest then none else r.incomplete[x]? :=
  OrdMap.lookup_erase _ _ _

/-- Rule-1 cleanup keeps the entries above the newest completed frame. -/
theorem getElem?_sweep (x : UInt32) :
    (r.sweep seq).incomplete[x]? =
      if max r.newestComplete seq.toNat < (x.toNat : Int) then r.incomplete[x]? else none := by
  change (OrdMap.eraseAll (r.incomplete.erase seq) _)[x]? = _
  rw [OrdMap.getElem?_eraseAll, OrdMap.lookup_erase]
  simp only [List.mem_filter, Std.ExtTreeMap.mem_keys, decide_eq_true_eq, OrdMap.mem_erase_iff]
  by_cases hlt : max r.newestComplete seq.toNat < (x.toNat : Int)
  · -- Above the new newest frame: neither the frame itself nor filtered out.
    have hne : ¬ x = seq := by
      rintro rfl
      exact absurd hlt (not_lt_of_ge (le_max_right _ _))
    rw [if_neg (fun hc => absurd hlt (not_lt_of_ge hc.2)), if_neg hne, if_pos hlt]
  · rw [if_neg hlt]
    by_cases hx : x = seq
    · rw [if_pos hx, ite_self]
    · by_cases hmem : x ∈ r.incomplete
      · rw [if_pos ⟨⟨hx, hmem⟩, le_of_not_gt hlt⟩]
      · rw [if_neg hx, getElem?_neg _ _ hmem, ite_self]

theorem mem_sweep (x : UInt32) :
    x ∈ (r.sweep seq).incomplete ↔
      x ∈ r.incomplete ∧ max r.newestComplete seq.toNat < (x.toNat : Int) := by
  rw [← Std.ExtTreeMap.isSome_getElem?_iff_mem, getElem?_sweep,
    ← Std.ExtTreeMap.isSome_getElem?_iff_mem]
  split_ifs with hlt
  · simp only [hlt, and_true]
  · simp only [hlt, Option.isSome_none, Bool.false_eq_true, and_false]

/-- Completing a frame in flight removes it and counts every other frame it
    removes. -/
theorem size_sweep (hmem : seq ∈ r.incomplete) :
    (r.sweep seq).incomplete.size + (r.sweep seq).counters.droppedIncomplete + 1 =
      r.incomplete.size + r.counters.droppedIncomplete := by
  -- The completed frame itself leaves uncounted, which is the one on the left.
  have hsize : (r.incomplete.erase seq).size + 1 = r.incomplete.size := by
    have hpos : 0 < r.incomplete.size := by
      rw [← Std.ExtTreeMap.length_keys]
      exact List.length_pos_of_mem (Std.ExtTreeMap.mem_keys.mpr hmem)
    rw [Std.ExtTreeMap.size_erase, if_pos (Std.ExtTreeMap.contains_iff_mem.mpr hmem)]
    omega
  have hsweep := OrdMap.size_eraseAll
    ((r.incomplete.erase seq).keys.filter
      fun s => decide ((s.toNat : Int) ≤ max r.newestComplete seq.toNat))
    (r.incomplete.erase seq) ((OrdMap.nodup_keys _).filter _)
    (fun k hk => Std.ExtTreeMap.mem_keys.mp (List.mem_of_mem_filter hk))
  simp only [sweep]
  omega

end Windows

section Slots

/-- The frame numbers at or below the newest completed frame. -/
def doneFrames (r : Reassembler) : LowerSet ℕ where
  carrier := {n | (n : Int) ≤ r.newestComplete}
  lower' := fun a b hba ha => by
    change (b : Int) ≤ r.newestComplete
    change (a : Int) ≤ r.newestComplete at ha
    omega

/-- The in-flight window of a state, over frame numbers. -/
def slots (r : Reassembler) : Window.Slots ℕ where
  live := (OrdMap.keySet r.incomplete).image UInt32.toNat
  done := r.doneFrames

theorem mem_done (r : Reassembler) (n : ℕ) :
    n ∈ r.slots.done ↔ (n : Int) ≤ r.newestComplete := Iff.rfl

theorem mem_live (r : Reassembler) (s : UInt32) : s.toNat ∈ r.slots.live ↔ s ∈ r.incomplete := by
  simp only [slots, Finset.mem_image, OrdMap.mem_keySet]
  constructor
  · rintro ⟨x, hx, heq⟩
    exact UInt32.toNat_inj.mp heq ▸ hx
  · exact fun hs => ⟨s, hs, rfl⟩

theorem exists_of_mem_live (r : Reassembler) (n : ℕ) (h : n ∈ r.slots.live) :
    ∃ s ∈ r.incomplete, s.toNat = n := by
  simpa only [slots, Finset.mem_image, OrdMap.mem_keySet] using h

theorem card_live (r : Reassembler) : r.slots.live.card = r.incomplete.size := by
  rw [slots, Finset.card_image_of_injective _ (fun a b h => UInt32.toNat_inj.mp h),
    OrdMap.card_keySet]

/-- Two states with the same frames in flight and the same newest completed
    frame have the same window. -/
theorem slots_congr (r r' : Reassembler) (hmem : ∀ x, x ∈ r'.incomplete ↔ x ∈ r.incomplete)
    (hnewest : r'.newestComplete = r.newestComplete) : r'.slots = r.slots := by
  refine Window.Slots.ext ?_ ?_
  · have hkeys : OrdMap.keySet r'.incomplete = OrdMap.keySet r.incomplete := by
      ext x
      rw [OrdMap.mem_keySet, OrdMap.mem_keySet, hmem]
    simp only [slots, hkeys]
  · ext n
    change (n : Int) ≤ r'.newestComplete ↔ (n : Int) ≤ r.newestComplete
    rw [hnewest]

theorem mem_of_prepare (r : Reassembler) (frag : Fragment) (a : Admission)
    (h : r.admission frag = some a) (hne : a ≠ .stale) :
    frag.frameSeq ∈ (r.prepare frag a).incomplete := by
  cases a with
  | stale => exact absurd rfl hne
  | present => exact r.mem_of_admission_present frag h
  | opened => exact mem_insert_self _ frag
  | evicting oldest => exact mem_insert_self _ frag

/-- A fragment is dropped as stale exactly if its frame is shut. -/
theorem stale_iff_shut (r : Reassembler) (frag : Fragment) :
    r.admission frag = some .stale ↔ Window.Shut 2 r.slots frag.frameSeq.toNat := by
  constructor
  · intro h
    cases r.admission_spec frag .stale h with
    | old hle => exact Or.inl hle
    | below hlt hmem hfull hbelow =>
        refine Or.inr ⟨by rw [card_live]; exact hfull, fun n hn => ?_⟩
        rcases r.exists_of_mem_live n hn with ⟨x, hx, rfl⟩
        exact hbelow x hx
  · intro hshut
    rcases Option.isSome_iff_exists.mp (r.admission_isSome frag) with ⟨a, ha⟩
    rw [ha]
    rcases hshut with hdone | ⟨hfull, hbelow⟩
    · -- Every other admission is of a frame above the newest completed one.
      have hle : (frag.frameSeq.toNat : Int) ≤ r.newestComplete := hdone
      cases r.admission_spec frag a ha <;> first | rfl | omega
    · -- Every entry is newer, so there is none of this frame, none to evict for
      -- it, and no room.
      rw [card_live] at hfull
      have hnewer : ∀ x ∈ r.incomplete, frag.frameSeq.toNat < x.toNat :=
        fun x hx => hbelow x.toNat ((r.mem_live x).mpr hx)
      cases r.admission_spec frag a ha with
      | old _ => rfl
      | below _ _ _ _ => rfl
      | present _ hmem => exact absurd (hnewer _ hmem) (Nat.lt_irrefl _)
      | opened _ _ hroom => omega
      | evicting oldest _ _ _ hold _ hlt =>
          have := hnewer oldest hold
          omega

/-- Opening an entry puts its frame in flight. -/
theorem slots_insert (r : Reassembler) (frag : Fragment) : (r.insert frag).slots =
    { r.slots with live := Insert.insert frag.frameSeq.toNat r.slots.live } := by
  refine Window.Slots.ext ?_ rfl
  ext n
  rw [Finset.mem_insert]
  constructor
  · intro hn
    rcases exists_of_mem_live _ n hn with ⟨x, hx, rfl⟩
    rcases (r.mem_insert frag x).mp hx with rfl | hx
    · exact Or.inl rfl
    · exact Or.inr ((r.mem_live x).mpr hx)
  · rintro (rfl | hn)
    · exact (mem_live _ _).mpr (r.mem_insert_self frag)
    · rcases exists_of_mem_live _ n hn with ⟨x, hx, rfl⟩
      exact (mem_live _ _).mpr ((r.mem_insert frag x).mpr (Or.inr hx))

/-- Evicting an entry takes its frame out of flight. -/
theorem slots_evict (r : Reassembler) (oldest : UInt32) : (r.evict oldest).slots =
    { r.slots with live := r.slots.live.erase oldest.toNat } := by
  refine Window.Slots.ext ?_ rfl
  ext n
  rw [Finset.mem_erase]
  constructor
  · intro hn
    rcases exists_of_mem_live _ n hn with ⟨x, hx, rfl⟩
    rcases (r.mem_evict oldest x).mp hx with ⟨hne, hx⟩
    exact ⟨fun hc => hne (UInt32.toNat_inj.mp hc), (r.mem_live x).mpr hx⟩
  · rintro ⟨hne, hn⟩
    rcases exists_of_mem_live _ n hn with ⟨x, hx, rfl⟩
    refine (mem_live _ _).mpr ((r.mem_evict oldest x).mpr ⟨?_, hx⟩)
    rintro rfl
    exact hne rfl

/-- An admission is a step of the window, or no step at all. -/
theorem prepare_reaches (r : Reassembler) (frag : Fragment) (a : Admission)
    (h : r.admission frag = some a) : Window.Reaches 2 r.slots (r.prepare frag a).slots := by
  cases r.admission_spec frag a h with
  | old _ => exact Relation.ReflTransGen.refl
  | below _ _ _ _ => exact Relation.ReflTransGen.refl
  | present _ _ => exact Relation.ReflTransGen.refl
  | opened hlt hmem hroom =>
      change Window.Reaches 2 r.slots (r.insert frag).slots
      rw [slots_insert]
      refine Relation.ReflTransGen.single (Window.Step.enter _ _ ?_ ?_ ?_)
      · rw [mem_live]
        exact hmem
      · rw [mem_done]
        omega
      · rw [card_live]
        exact hroom
  | evicting oldest hlt hmem hfull hold hmin hnewer =>
      -- Eviction and opening are one step: in between the window is not full.
      change Window.Reaches 2 r.slots ((r.evict oldest).insert frag).slots
      rw [slots_insert, slots_evict]
      refine Relation.ReflTransGen.single
        (Window.Step.replace _ oldest.toNat _ ?_ ?_ ((mem_live _ _).mpr hold) ?_ ?_ hnewer)
      · rw [mem_live]
        exact hmem
      · rw [mem_done]
        omega
      · intro n hn
        rcases exists_of_mem_live _ n hn with ⟨x, hx, rfl⟩
        exact hmin x hx
      · rw [card_live]
        exact hfull

/-- Storing a fragment of a frame in flight leaves the window as it is. -/
theorem slots_store (r : Reassembler) (frag : Fragment) (e : Incomplete)
    (h : frag.frameSeq ∈ r.incomplete) : (r.store frag e).slots = r.slots := by
  refine slots_congr _ _ (fun x => ?_) rfl
  change x ∈ r.incomplete.insert _ _ ↔ _
  rw [OrdMap.mem_insert_iff]
  constructor
  · rintro (rfl | hx)
    · exact h
    · exact hx
  · exact Or.inr

/-- Completing a frame in flight and cleaning up is a step of the window. -/
theorem sweep_reaches (r : Reassembler) (seq : UInt32) (hw : Window.Wf 2 r.slots)
    (h : seq ∈ r.incomplete) : Window.Reaches 2 r.slots (r.sweep seq).slots := by
  have hslots : (r.sweep seq).slots =
      { live := r.slots.live.filter (seq.toNat < ·),
        done := r.slots.done ⊔ LowerSet.Iic seq.toNat } := by
    refine Window.Slots.ext ?_ ?_
    · ext n
      rw [Finset.mem_filter]
      constructor
      · intro hn
        rcases exists_of_mem_live _ n hn with ⟨x, hx, rfl⟩
        rcases (r.mem_sweep seq x).mp hx with ⟨hx, hlt⟩
        exact ⟨(r.mem_live x).mpr hx, by omega⟩
      · rintro ⟨hn, hlt⟩
        rcases exists_of_mem_live _ n hn with ⟨x, hx, rfl⟩
        -- What is in flight is above the newest completed frame already.
        have hfresh := hw.fresh x.toNat hn
        rw [mem_done] at hfresh
        exact (mem_live _ _).mpr ((r.mem_sweep seq x).mpr ⟨hx, by omega⟩)
    · ext n
      change (n : Int) ≤ max r.newestComplete seq.toNat ↔
        (n : Int) ≤ r.newestComplete ∨ n ≤ seq.toNat
      omega
  rw [hslots]
  exact Relation.ReflTransGen.single (Window.Step.complete _ _ ((r.mem_live seq).mpr h))

theorem slots_gate (r : Reassembler) (tMs : Int64) (seq : UInt32) (keyframe : Bool) :
    (r.gate tMs seq keyframe).slots = r.slots :=
  slots_congr _ _ (fun x => by rw [gate_incomplete]) (gate_newest _ _ _ _)

/-- A push is a path of the window. -/
theorem push_reaches (r : Reassembler) (tMs : Int64) (frag : Fragment)
    (hw : Window.Wf 2 r.slots) : Window.Reaches 2 r.slots (r.push tMs frag).slots := by
  have hcases := r.push_cases tMs frag
  generalize r.push tMs frag = r' at hcases ⊢
  cases hcases with
  | stale hadm =>
      rw [slots_congr r r.dropStale (fun _ => Iff.rfl) rfl]
  | pending a e hadm hne hentry hcard =>
      rw [slots_store _ frag e (r.mem_of_prepare frag a hadm hne)]
      exact r.prepare_reaches frag a hadm
  | completed a e hadm hne hentry hcard =>
      -- The admission first, then the completion, in a window still well formed.
      have hadmit := r.prepare_reaches frag a hadm
      rw [slots_gate]
      exact hadmit.trans (sweep_reaches _ _ (Window.wf_of_reaches hadmit hw)
        (r.mem_of_prepare frag a hadm hne))

theorem wf_push (r : Reassembler) (tMs : Int64) (frag : Fragment) (hw : Window.Wf 2 r.slots) :
    Window.Wf 2 (r.push tMs frag).slots :=
  Window.wf_of_reaches (r.push_reaches tMs frag hw) hw

theorem wf_pushAll (r : Reassembler) (trace : List (Int64 × Fragment))
    (hw : Window.Wf 2 r.slots) : Window.Wf 2 (r.pushAll trace).slots :=
  pushAll_invariant (P := fun r => Window.Wf 2 r.slots) wf_push trace r hw

/-- A trace is a path of the window. -/
theorem pushAll_reaches (trace : List (Int64 × Fragment)) :
    ∀ (r : Reassembler), Window.Wf 2 r.slots →
      Window.Reaches 2 r.slots (r.pushAll trace).slots := by
  induction trace with
  | nil => exact fun r _ => Relation.ReflTransGen.refl
  | cons x rest ih =>
      exact fun r hw => (r.push_reaches x.1 x.2 hw).trans (ih _ (r.wf_push x.1 x.2 hw))

/-- After a push, the frame of its fragment is in flight or shut. -/
theorem settled_push (r : Reassembler) (tMs : Int64) (frag : Fragment) :
    Window.Settled 2 (r.push tMs frag).slots frag.frameSeq.toNat := by
  have hcases := r.push_cases tMs frag
  generalize r.push tMs frag = r' at hcases ⊢
  cases hcases with
  | stale hadm => exact Or.inr ((r.stale_iff_shut frag).mp hadm)
  | pending a e hadm hne hentry hcard =>
      refine Or.inl ((mem_live _ _).mpr ?_)
      rw [← Std.ExtTreeMap.isSome_getElem?_iff_mem, getElem?_store, if_pos rfl]
      rfl
  | completed a e hadm hne hentry hcard =>
      refine Or.inr (Or.inl ?_)
      rw [mem_done, gate_newest, sweep_newest]
      exact le_max_right _ _

theorem wf_new : Window.Wf 2 new.slots := by
  have hempty : new.slots.live = ∅ := by
    rw [← Finset.card_eq_zero, card_live]
    rfl
  refine ⟨by rw [hempty]; exact Nat.zero_le _, fun x hx => ?_⟩
  rw [hempty] at hx
  exact absurd hx (Finset.notMem_empty x)

end Slots

end Reassembler

end Reassembly

end LoomHost
