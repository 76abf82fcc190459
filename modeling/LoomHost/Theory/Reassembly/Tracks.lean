import LoomHost.Theory.Reassembly.Arrivals
import LoomHost.Theory.Reassembly.Chain
import LoomHost.Theory.Reassembly.Entries

/-!
# Keeping Track of a Run

The invariant `Tracks` reads the state off the fragments that have arrived: the
first `d` frames of a run are whole and delivered, and every later frame that has
started is in the window with exactly the indices that arrived. Fragments of older
frames move only what is below the first frame of the run.

## Main definitions

* `deliveredFrom`: The delivered frames at or above a number.
* `Below`: Everything a state holds is below a number.
* `Tracks`: The state, read off the fragments that have arrived.

## Theorems

* `getElem?_push_of_lt`: Older fragments leave newer entries alone.
* `prepare_next`: A fragment of the run finds its entry.
* `tracks_push`: A push keeps track, and delivers what it completes.
-/

namespace LoomHost

namespace Reassembly

namespace Reassembler

/-- A push of an older frame leaves the newer entries alone. -/
theorem getElem?_push_of_lt (r : Reassembler) (tMs : Int64) (frag : Fragment) (s : UInt32)
    (hlt : frag.frameSeq.toNat < s.toNat) (hnew : r.newestComplete < s.toNat) :
    (r.push tMs frag).incomplete[s]? = r.incomplete[s]? := by
  have hne : s ≠ frag.frameSeq := by
    rintro rfl
    exact Nat.lt_irrefl _ hlt
  have hadmit : ∀ a, r.admission frag = some a →
      (r.prepare frag a).incomplete[s]? = r.incomplete[s]? := by
    intro a ha
    cases r.admission_spec frag a ha with
    | old _ => rfl
    | below _ _ _ _ => rfl
    | present _ _ => rfl
    | opened _ _ _ =>
        change (r.insert frag).incomplete[s]? = _
        rw [getElem?_insert, if_neg hne]
    | evicting oldest _ _ _ _ _ hold =>
        -- The evicted frame is older than the pushed one.
        have hne' : s ≠ oldest := by
          rintro rfl
          omega
        change ((r.evict oldest).insert frag).incomplete[s]? = _
        rw [getElem?_insert, if_neg hne, getElem?_evict, if_neg hne']
  have hcases := r.push_cases tMs frag
  generalize r.push tMs frag = r' at hcases ⊢
  cases hcases with
  | stale hadm => rfl
  | pending a e hadm hne' hentry hcard =>
      rw [getElem?_store, if_neg hne, hadmit a hadm]
  | completed a e hadm hne' hentry hcard =>
      rw [gate_incomplete, getElem?_sweep, prepare_newest, if_pos (by omega), hadmit a hadm]

/-- The delivered frame numbers at or above `k`, in order. -/
def deliveredFrom (k : ℕ) (ds : List (UInt32 × Bool)) : List ℕ :=
  (ds.map frameNum).filter fun n => decide (k ≤ n)

theorem deliveredFrom_concat_of_le (k : ℕ) (ds : List (UInt32 × Bool)) (e : UInt32 × Bool)
    (h : k ≤ frameNum e) : deliveredFrom k (ds ++ [e]) = deliveredFrom k ds ++ [frameNum e] := by
  rw [deliveredFrom, List.map_append, List.filter_append]
  exact congrArg _ (List.filter_cons_of_pos (decide_eq_true h))

theorem deliveredFrom_concat_of_lt (k : ℕ) (ds : List (UInt32 × Bool)) (e : UInt32 × Bool)
    (h : frameNum e < k) : deliveredFrom k (ds ++ [e]) = deliveredFrom k ds := by
  rw [deliveredFrom, List.map_append, List.filter_append, List.map_singleton,
    List.filter_cons_of_neg (by rw [decide_eq_true_eq]; omega), List.filter_nil, List.append_nil,
    deliveredFrom]

/-- Everything a state holds is below `k`. -/
structure Below (k : ℕ) (r : Reassembler) : Prop where
  newest : r.newestComplete < k
  keys : ∀ s ∈ r.incomplete, s.toNat < k
  delivered : ∀ e ∈ deliveries r.events, frameNum e < k

theorem below_new (k : ℕ) : Below k new := by
  refine ⟨?_, fun s hs => absurd hs Std.ExtTreeMap.not_mem_empty, fun e he => ?_⟩
  · have hnew : new.newestComplete = -1 := rfl
    omega
  · exact absurd he List.not_mem_nil

/-- What a push adds to the deliveries is its own frame. -/
theorem deliveries_push (r : Reassembler) (tMs : Int64) (frag : Fragment) :
    deliveries (r.push tMs frag).events = deliveries r.events ∨
      ∃ keyframe, deliveries (r.push tMs frag).events =
        deliveries r.events ++ [(frag.frameSeq, keyframe)] := by
  have hcases := r.push_cases tMs frag
  generalize r.push tMs frag = r' at hcases ⊢
  cases hcases with
  | stale hadm => exact Or.inl rfl
  | pending a e hadm hne hentry hcard =>
      rw [store_events, prepare_events]
      exact Or.inl rfl
  | completed a e hadm hne hentry hcard =>
      -- A completed frame is delivered, or discarded at a gap.
      by_cases hdec : e.keyframe = true ∨
          ((r.prepare frag a).sweep frag.frameSeq).lastDecoded =
            some ((frag.frameSeq.toNat : Int) - 1)
      · rw [gate_deliver _ _ _ _ hdec, deliver, deliveries_append, sweep_events, prepare_events]
        exact Or.inr ⟨e.keyframe, rfl⟩
      · rw [gate_discard _ _ _ _ hdec, deliveries_maybeIdr]
        exact Or.inl (congrArg deliveries (prepare_events r frag a))

/-- The newest completed frame after a push is the old one or the fragment's. -/
theorem newest_push_le (r : Reassembler) (tMs : Int64) (frag : Fragment) :
    (r.push tMs frag).newestComplete ≤ max r.newestComplete frag.frameSeq.toNat := by
  have hcases := r.push_cases tMs frag
  generalize r.push tMs frag = r' at hcases ⊢
  cases hcases with
  | stale hadm => exact le_max_left _ _
  | pending a e hadm hne hentry hcard =>
      rw [store_newest, prepare_newest]
      exact le_max_left _ _
  | completed a e hadm hne hentry hcard =>
      rw [gate_newest, sweep_newest, prepare_newest]

theorem below_push (k : ℕ) (r : Reassembler) (tMs : Int64) (frag : Fragment)
    (hlt : frag.frameSeq.toNat < k) (hr : Below k r) : Below k (r.push tMs frag) := by
  refine ⟨?_, fun s hs => ?_, fun e he => ?_⟩
  · have := r.newest_push_le tMs frag
    have := hr.newest
    omega
  · rw [← Std.ExtTreeMap.isSome_getElem?_iff_mem, Option.isSome_iff_exists] at hs
    rcases hs with ⟨e, he⟩
    rcases r.push_entry tMs frag s e he with hold | ⟨rfl, _⟩
    · refine hr.keys s ?_
      rw [← Std.ExtTreeMap.isSome_getElem?_iff_mem, hold]
      rfl
    · exact hlt
  · rcases r.deliveries_push tMs frag with heq | ⟨keyframe, heq⟩
    · rw [heq] at he
      exact hr.delivered e he
    · rw [heq, List.mem_append, List.mem_singleton] at he
      rcases he with he | rfl
      · exact hr.delivered e he
      · exact hlt

theorem below_pushAll (k : ℕ) (trace : List (Int64 × Fragment)) :
    ∀ (r : Reassembler), (∀ x ∈ trace, x.2.frameSeq.toNat < k) → Below k r →
      Below k (r.pushAll trace) := by
  induction trace with
  | nil => exact fun r _ hr => hr
  | cons x rest ih =>
      exact fun r hlt hr => ih _ (fun y hy => hlt y (List.mem_cons_of_mem _ hy))
        (below_push k r x.1 x.2 (hlt x List.mem_cons_self) hr)

/-- The state, read off the fragments of a run that have arrived: the first `d`
    frames are whole and delivered, and a later frame is in the window, with
    the indices that have arrived, iff it has started. -/
structure Tracks (f : FrameRun) (p : List (Int64 × Fragment)) (r : Reassembler) (d : ℕ) :
    Prop where
  wf : Window.Wf 2 r.slots
  le : d ≤ f.more + 1
  whole : ∀ n, f.first ≤ n → n ≤ f.first + f.more → (f.Whole p n ↔ n < f.first + d)
  newest : r.newestComplete < f.first + d
  newest_eq : 0 < d → r.newestComplete + 1 = f.first + d
  decoded : 0 < d → r.lastDecoded = some (r.newestComplete)
  started : ∀ s : UInt32, f.first + d ≤ s.toNat → Started p s.toNat →
    r.incomplete[s]? = some (f.entryOf p s.toNat)
  unstarted : ∀ s : UInt32, f.first + d ≤ s.toNat → ¬ Started p s.toNat → s ∉ r.incomplete
  delivered : deliveredFrom f.first (deliveries r.events) = List.range' f.first d

/-- A state below the run tracks it before any of it has arrived. -/
theorem tracks_of_below (f : FrameRun) (c : List (Int64 × Fragment)) (hc : f.Continues c)
    (r : Reassembler) (hw : Window.Wf 2 r.slots) (hr : Below f.first r) : Tracks f [] r 0 := by
  refine ⟨hw, Nat.zero_le _, fun n hlo hhi => ?_, hr.newest, fun h => absurd h (Nat.lt_irrefl 0),
    fun h => absurd h (Nat.lt_irrefl 0), fun s _ hs => ?_, fun s hlo _ hs => ?_, ?_⟩
  · have hpos := hc.positive n hlo hhi
    refine ⟨fun hwhole => ?_, fun hlt => by omega⟩
    rcases hwhole 0 hpos with ⟨y, hy, _⟩
    exact absurd hy List.not_mem_nil
  · rcases hs with ⟨y, hy, _⟩
    exact absurd hy List.not_mem_nil
  · have := hr.keys s hs
    omega
  · -- Nothing of the run has been delivered, as all deliveries are below it.
    rw [deliveredFrom, List.range'_zero, List.filter_eq_nil_iff]
    intro n hn
    rcases List.mem_map.mp hn with ⟨e, he, rfl⟩
    have := hr.delivered e he
    rw [decide_eq_true_eq]
    omega

section Step

variable {f : FrameRun} {c p s : List (Int64 × Fragment)} {x : Int64 × Fragment}
  {r : Reassembler} {d : ℕ}

/-- In a prefix of the trace the whole frames of the run are the lowest ones. -/
theorem whole_of_le (hc : f.Continues c) (hp : c = p ++ s) (a : ℕ) (ha : f.first ≤ a) :
    ∀ (k : ℕ), a + k ≤ f.first + f.more → f.Whole p (a + k) → f.Whole p a := by
  intro k
  induction k with
  | zero => exact fun _ h => h
  | succ j ih =>
      intro hle hw
      exact ih (by omega) (hc.in_order p s hp (a + j) (by omega) (by omega) hw)

/-- A frame of the run in the window is in flight. -/
theorem Tracks.inFlight (ht : Tracks f p r d) (hc : f.Continues c) (hp : c = p ++ s) (k : UInt32)
    (hk : k ∈ r.incomplete) (hlo : f.first ≤ k.toNat) : f.InFlight p k.toNat := by
  have hfresh := ht.wf.fresh k.toNat ((r.mem_live k).mpr hk)
  rw [mem_done] at hfresh
  have hd : f.first + d ≤ k.toNat := by
    rcases Nat.eq_zero_or_pos d with rfl | hpos
    · exact hlo
    · have := ht.newest_eq hpos
      omega
  have hstart : Started p k.toNat := by
    by_contra hns
    exact ht.unstarted k hd hns hk
  -- Whole frames are below `d`, and this one is not.
  refine ⟨hlo, hstart, fun hw => ?_⟩
  rcases hstart with ⟨y, hy, hn⟩
  have hle := hc.le_of_mem y (hp ▸ List.mem_append_left _ hy) (hn ▸ hlo)
  have := (ht.whole k.toNat hlo (by omega)).mp hw
  omega

/-- A fragment that opens its frame never finds two others in flight: either
    there would be three, or the frame is a single fragment that has been
    overtaken. -/
theorem not_two_in_flight (hc : f.Continues c) (ho : f.NotOvertaken c) (hp : c = p ++ x :: s)
    (hlo : f.first ≤ x.2.frameSeq.toNat) (hns : ¬ Started p x.2.frameSeq.toNat) (a b : ℕ)
    (hab : a ≠ b) (ha : f.InFlight p a) (hb : f.InFlight p b) : False := by
  have hp' := hp.trans (List.append_cons p x s)
  have hne : ∀ j, f.InFlight p j → x.2.frameSeq.toNat ≠ j := by
    rintro j ⟨_, hj, _⟩ rfl
    exact hns hj
  have hhi := hc.le_of_mem x (hp ▸ List.mem_append_right _ List.mem_cons_self) hlo
  have hstill : ∀ j, f.InFlight p j → f.InFlight (p ++ [x]) j := by
    intro j hj
    refine ⟨hj.1, (started_concat p x j).mpr (Or.inl hj.2.1), fun hw => ?_⟩
    exact hj.2.2 ((whole_concat_of_ne f p x j (hne j hj)).mp hw)
  by_cases hw : f.Whole (p ++ [x]) x.2.frameSeq.toNat
  · -- Its only fragment: the other two are later, since frames complete in order.
    have hone : f.count x.2.frameSeq.toNat = 1 := by
      have hpos := hc.positive _ hlo hhi
      refine UInt16.toNat_inj.mp ?_
      change (f.count x.2.frameSeq.toNat).toNat = 1
      -- With two indices or more, one of them would have arrived before.
      by_contra hmany
      have hidx : ∀ i, i < (f.count x.2.frameSeq.toNat).toNat → x.2.fragIndex.toNat = i := by
        intro i hi
        rcases hw i hi with ⟨y, hy, hn, hyi⟩
        rcases List.mem_append.mp hy with hy | hy
        · exact absurd ⟨y, hy, hn⟩ hns
        · rw [List.mem_singleton] at hy
          exact hy ▸ hyi
      have h0 := hidx 0 (by omega)
      have h1 := hidx 1 (by omega)
      omega
    have hlater : ∀ j, f.InFlight p j → x.2.frameSeq.toNat < j := by
      intro j hj
      by_contra hle
      have heq : j + (x.2.frameSeq.toNat - j) = x.2.frameSeq.toNat := by omega
      exact (hstill j hj).2.2 (whole_of_le hc hp' j hj.1 (x.2.frameSeq.toNat - j)
        (heq.symm ▸ hhi) (heq.symm ▸ hw))
    exact ho p x s hp hlo hone hns a b hab (hlater a ha) (hlater b hb) ⟨ha, hb⟩
  · -- Not whole, so it is in flight itself, and they are three.
    have hx : f.InFlight (p ++ [x]) x.2.frameSeq.toNat :=
      ⟨hlo, (started_concat p x _).mpr (Or.inr rfl), hw⟩
    have hcard := hc.window (p ++ [x]) s hp' {a, b, x.2.frameSeq.toNat} (fun n hn => by
      simp only [Finset.mem_insert, Finset.mem_singleton] at hn
      rcases hn with rfl | rfl | rfl
      · exact hstill _ ha
      · exact hstill _ hb
      · exact hx)
    rw [Finset.card_eq_three.mpr ⟨a, b, _, hab, (hne a ha).symm, (hne b hb).symm, rfl⟩] at hcard
    omega

/-- The entry opened for a frame of the run that has not started. -/
theorem opened_eq_entryOf (hc : f.Continues c) (hp : c = p ++ x :: s)
    (hlo : f.first ≤ x.2.frameSeq.toNat) (hns : ¬ Started p x.2.frameSeq.toNat) :
    (⟨x.2.fragCount, ∅, x.2.keyframe⟩ : Incomplete) = f.entryOf p x.2.frameSeq.toNat := by
  rcases hc.frags x (hp ▸ List.mem_append_right _ List.mem_cons_self) with
    hlt | ⟨_, hcnt, hkey, _⟩
  · omega
  · rw [FrameRun.entryOf, indices_eq_empty p _ hns, hcnt, hkey]

/-- A frame of the run that is not in the window has not started. -/
theorem Tracks.not_started (ht : Tracks f p r d) {n : UInt32} (hlo : f.first + d ≤ n.toNat)
    (hmem : n ∉ r.incomplete) : ¬ Started p n.toNat := by
  intro hst
  refine hmem ?_
  rw [← Std.ExtTreeMap.isSome_getElem?_iff_mem, ht.started _ hlo hst]
  rfl

/-- A full window has an entry below the run when a frame of the run opens: two
    entries at or above it would be two frames in flight. -/
theorem Tracks.entry_below (ht : Tracks f p r d) (hc : f.Continues c) (ho : f.NotOvertaken c)
    (hp : c = p ++ x :: s) (hlo : f.first + d ≤ x.2.frameSeq.toNat)
    (hmem : x.2.frameSeq ∉ r.incomplete) (hfull : 2 ≤ r.incomplete.size) :
    ¬ ∀ k ∈ r.incomplete, f.first ≤ k.toNat := by
  intro hall
  have hcard : 1 < (OrdMap.keySet r.incomplete).card := by
    rw [OrdMap.card_keySet]
    omega
  rcases Finset.one_lt_card.mp hcard with ⟨a, ha, b, hb, hab⟩
  rw [OrdMap.mem_keySet] at ha hb
  exact not_two_in_flight hc ho hp (by omega) (ht.not_started hlo hmem) a.toNat b.toNat
    (fun h => hab (UInt32.toNat_inj.mp h)) (ht.inFlight hc hp a ha (hall a ha))
    (ht.inFlight hc hp b hb (hall b hb))

/-- A fragment of a frame of the run that is not whole finds its frame's entry,
    and the admission leaves the other frames of the run alone: if it evicts,
    it evicts an older frame. -/
theorem prepare_next (ht : Tracks f p r d) (hc : f.Continues c) (ho : f.NotOvertaken c)
    (hp : c = p ++ x :: s) (hlo : f.first + d ≤ x.2.frameSeq.toNat) :
    ∃ a, r.admission x.2 = some a ∧ a ≠ .stale ∧
      (r.prepare x.2 a).incomplete[x.2.frameSeq]? = some (f.entryOf p x.2.frameSeq.toNat) ∧
      ∀ k, k ≠ x.2.frameSeq → f.first ≤ k.toNat →
        (r.prepare x.2 a).incomplete[k]? = r.incomplete[k]? := by
  have hfirst : f.first ≤ x.2.frameSeq.toNat := by omega
  have hnewest := ht.newest
  have hopen (hmem : x.2.frameSeq ∉ r.incomplete) :=
    opened_eq_entryOf hc hp hfirst (ht.not_started hlo hmem)
  rcases Option.isSome_iff_exists.mp (r.admission_isSome x.2) with ⟨a, ha⟩
  refine ⟨a, ha, ?_⟩
  cases r.admission_spec x.2 a ha with
  | old hle => omega
  | below _ hmem hfull hbelow =>
      -- Older than every entry, so all of them would be of the run.
      refine absurd (fun k hk => ?_) (ht.entry_below hc ho hp hlo hmem hfull)
      have := hbelow k hk
      omega
  | present _ hmem =>
      refine ⟨by simp only [ne_eq, reduceCtorEq, not_false_eq_true], ?_, fun k _ _ => rfl⟩
      refine ht.started _ hlo ?_
      by_contra hns
      exact ht.unstarted _ hlo hns hmem
  | opened _ hmem _ =>
      refine ⟨by simp only [ne_eq, reduceCtorEq, not_false_eq_true], ?_, fun k hk _ => ?_⟩
      · change (r.insert x.2).incomplete[x.2.frameSeq]? = _
        rw [getElem?_insert, if_pos rfl, hopen hmem]
      · change (r.insert x.2).incomplete[k]? = _
        rw [getElem?_insert, if_neg hk]
  | evicting oldest _ hmem hfull hold hmin _ =>
      -- Not both entries are of the run, so the oldest is not.
      have holdest : oldest.toNat < f.first := by
        by_contra hge
        refine absurd (fun k hk => ?_) (ht.entry_below hc ho hp hlo hmem hfull)
        have := hmin k hk
        omega
      refine ⟨by simp only [ne_eq, reduceCtorEq, not_false_eq_true], ?_, fun k hk hlok => ?_⟩
      · change ((r.evict oldest).insert x.2).incomplete[x.2.frameSeq]? = _
        rw [getElem?_insert, if_pos rfl, hopen hmem]
      · have hne : k ≠ oldest := by
          rintro rfl
          omega
        change ((r.evict oldest).insert x.2).incomplete[k]? = _
        rw [getElem?_insert, if_neg hk, getElem?_evict, if_neg hne]

/-- Fragments of older frames move only what is below the run. -/
theorem tracks_old (ht : Tracks f p r d) (hlt : x.2.frameSeq.toNat < f.first) :
    Tracks f (p ++ [x]) (r.push x.1 x.2) d ∧ (0 < d → (r.push x.1 x.2).events = r.events) := by
  have hsame : ∀ n, f.first ≤ n → x.2.frameSeq.toNat ≠ n := by
    rintro n hn rfl
    omega
  have hwhole : ∀ n, f.first ≤ n → n ≤ f.first + f.more →
      (f.Whole (p ++ [x]) n ↔ n < f.first + d) := by
    intro n hlo hhi
    rw [whole_concat_of_ne f p x n (hsame n hlo)]
    exact ht.whole n hlo hhi
  have hstart : ∀ n, f.first ≤ n → (Started (p ++ [x]) n ↔ Started p n) := by
    intro n hn
    rw [started_concat]
    exact ⟨fun h => h.resolve_right (hsame n hn), Or.inl⟩
  have hentry : ∀ n, f.first ≤ n → f.entryOf (p ++ [x]) n = f.entryOf p n := by
    intro n hn
    rw [FrameRun.entryOf, indices_concat_of_ne p x n (hsame n hn), FrameRun.entryOf]
  rcases Nat.eq_zero_or_pos d with rfl | hpos
  · -- The keyframe is still to come: an old frame may complete, below the run.
    have hnewest := ht.newest
    have hle := r.newest_push_le x.1 x.2
    have hlook : ∀ k : UInt32, f.first ≤ k.toNat →
        (r.push x.1 x.2).incomplete[k]? = r.incomplete[k]? := fun k hk =>
      r.getElem?_push_of_lt x.1 x.2 k (by omega) (by omega)
    refine ⟨⟨r.wf_push x.1 x.2 ht.wf, ht.le, hwhole, by omega, fun h => absurd h (Nat.lt_irrefl 0),
      fun h => absurd h (Nat.lt_irrefl 0), fun k hk hst => ?_, fun k hk hst hmem => ?_, ?_⟩,
      fun h => absurd h (Nat.lt_irrefl 0)⟩
    · rw [hlook k (by omega), hentry _ (by omega)]
      exact ht.started k hk ((hstart _ (by omega)).mp hst)
    · rw [← Std.ExtTreeMap.isSome_getElem?_iff_mem, hlook k (by omega),
        Std.ExtTreeMap.isSome_getElem?_iff_mem] at hmem
      exact ht.unstarted k hk (fun h => hst ((hstart _ (by omega)).mpr h)) hmem
    · rcases r.deliveries_push x.1 x.2 with heq | ⟨keyframe, heq⟩
      · rw [heq]
        exact ht.delivered
      · rw [heq, deliveredFrom_concat_of_lt _ _ _ hlt]
        exact ht.delivered
  · -- Some frame of the run is whole, so the fragment is stale.
    have hstale : r.admission x.2 = some .stale := by
      have := ht.newest_eq hpos
      exact if_pos (by omega)
    rw [r.push_stale x.1 x.2 hstale]
    refine ⟨⟨ht.wf, ht.le, hwhole, ht.newest, ht.newest_eq, ht.decoded, fun k hk hst => ?_,
      fun k hk hst => ?_, ht.delivered⟩, fun _ => rfl⟩
    · rw [hentry _ (by omega)]
      exact ht.started k hk ((hstart _ (by omega)).mp hst)
    · exact ht.unstarted k hk (fun h => hst ((hstart _ (by omega)).mpr h))

/-- A fragment of a frame that is already whole is stale. -/
theorem tracks_done (ht : Tracks f p r d) (hc : f.Continues c) (hp : c = p ++ x :: s)
    (hlo : f.first ≤ x.2.frameSeq.toNat) (hlt : x.2.frameSeq.toNat < f.first + d) :
    Tracks f (p ++ [x]) (r.push x.1 x.2) d ∧ (r.push x.1 x.2).events = r.events := by
  have hhi := hc.le_of_mem x (hp ▸ List.mem_append_right _ List.mem_cons_self) hlo
  -- The frame has been delivered, so the fragment is stale.
  have hstale : r.admission x.2 = some .stale := by
    have := ht.newest_eq (by omega)
    exact if_pos (by omega)
  have hother : ∀ n, f.first + d ≤ n → x.2.frameSeq.toNat ≠ n := by
    rintro n hn rfl
    omega
  rw [r.push_stale x.1 x.2 hstale]
  refine ⟨⟨ht.wf, ht.le, fun n hn hn' => ?_, ht.newest, ht.newest_eq, ht.decoded,
    fun k hk hst => ?_, fun k hk hst => ?_, ht.delivered⟩, rfl⟩
  · rw [← ht.whole n hn hn']
    by_cases hne : x.2.frameSeq.toNat = n
    · subst hne
      have hw := (ht.whole _ hn hn').mpr hlt
      exact ⟨fun _ => hw, fun _ => whole_concat_of_whole f p x _ hw⟩
    · exact whole_concat_of_ne f p x n hne
  · rw [FrameRun.entryOf, indices_concat_of_ne p x _ (hother _ hk)]
    exact ht.started k hk (((started_concat p x _).mp hst).resolve_right (hother _ hk))
  · exact ht.unstarted k hk (fun h => hst ((started_concat p x _).mpr (Or.inl h)))

/-- The fragment's frame has all its indices iff it is whole. -/
theorem receive_full_iff (hc : f.Continues c) (hp : c = p ++ x :: s)
    (hlo : f.first ≤ x.2.frameSeq.toNat) :
    ((f.entryOf p x.2.frameSeq.toNat).receive x.2).got.card =
        (f.entryOf p x.2.frameSeq.toNat).need.toNat ↔
      f.Whole (p ++ [x]) x.2.frameSeq.toNat := by
  have hgot : ((f.entryOf p x.2.frameSeq.toNat).receive x.2).got =
      indices (p ++ [x]) x.2.frameSeq.toNat := (indices_concat_self p x _ rfl).symm
  have hmem : ∀ y ∈ p ++ [x], y ∈ c := by
    intro y hy
    rw [hp, List.append_cons]
    exact List.mem_append_left _ hy
  have hsmall : ∀ i ∈ indices (p ++ [x]) x.2.frameSeq.toNat,
      i.toNat < (f.count x.2.frameSeq.toNat).toNat := by
    intro i hi
    rcases (mem_indices _ _ i).mp hi with ⟨y, hy, hn, rfl⟩
    rcases hc.frags y (hmem y hy) with hlt | ⟨_, _, _, hidx⟩
    · omega
    · rw [hn] at hidx
      exact hidx
  rw [hgot]
  -- As no index is out of range, as many as the count are all of them.
  refine (card_eq_iff_covers _ _ hsmall).trans (forall_congr' fun i => imp_congr_right fun _ => ?_)
  constructor
  · rintro ⟨j, hj, rfl⟩
    rcases (mem_indices _ _ j).mp hj with ⟨y, hy, hn, rfl⟩
    exact ⟨y, hy, hn, rfl⟩
  · rintro ⟨y, hy, hn, rfl⟩
    exact ⟨_, (mem_indices _ _ _).mpr ⟨y, hy, hn, rfl⟩, rfl⟩

/-- The fragment enters its frame's entry, and the frame is still not whole. -/
theorem tracks_stored (ht : Tracks f p r d) (hlo : f.first + d ≤ x.2.frameSeq.toNat)
    (a : Admission)
    (hothers : ∀ k, k ≠ x.2.frameSeq → f.first ≤ k.toNat →
      (r.prepare x.2 a).incomplete[k]? = r.incomplete[k]?)
    (hnot : ¬ f.Whole (p ++ [x]) x.2.frameSeq.toNat)
    (hwf : Window.Wf 2 ((r.prepare x.2 a).store x.2 (f.entryOf p x.2.frameSeq.toNat)).slots) :
    Tracks f (p ++ [x]) ((r.prepare x.2 a).store x.2 (f.entryOf p x.2.frameSeq.toNat)) d := by
  refine ⟨hwf, ht.le, fun n hn hn' => ?_, ?_, ?_, ?_, fun k hk hst => ?_,
    fun k hk hst hmem => ?_, ?_⟩
  · by_cases hxn : x.2.frameSeq.toNat = n
    · subst hxn
      exact ⟨fun h => absurd h hnot, fun h => by omega⟩
    · rw [whole_concat_of_ne f p x n hxn]
      exact ht.whole n hn hn'
  · rw [store_newest, prepare_newest]
    exact ht.newest
  · rw [store_newest, prepare_newest]
    exact ht.newest_eq
  · rw [store_newest, prepare_newest, store_lastDecoded, prepare_lastDecoded]
    exact ht.decoded
  · -- The frame's own entry has one index more; the others are as they were.
    rw [getElem?_store]
    split_ifs with hkx
    · subst hkx
      rw [FrameRun.entryOf, FrameRun.entryOf, indices_concat_self p x _ rfl]
      rfl
    · have hxk : x.2.frameSeq.toNat ≠ k.toNat := fun h => hkx (UInt32.toNat_inj.mp h).symm
      rw [hothers k hkx (by omega), FrameRun.entryOf, indices_concat_of_ne p x _ hxk]
      exact ht.started k hk (((started_concat p x _).mp hst).resolve_right hxk)
  · rw [started_concat, not_or] at hst
    have hkx : k ≠ x.2.frameSeq := by
      rintro rfl
      exact hst.2 rfl
    rw [← Std.ExtTreeMap.isSome_getElem?_iff_mem, getElem?_store, if_neg hkx,
      hothers k hkx (by omega), Std.ExtTreeMap.isSome_getElem?_iff_mem] at hmem
    exact ht.unstarted k hk hst.1 hmem
  · rw [store_events, prepare_events]
    exact ht.delivered

/-- Frames complete in order, so the frame a push completes is the first one
    that was not whole. -/
theorem Tracks.next_of_whole (ht : Tracks f p r d) (hc : f.Continues c) (hp : c = p ++ x :: s)
    (hlo : f.first + d ≤ x.2.frameSeq.toNat) (hw : f.Whole (p ++ [x]) x.2.frameSeq.toNat) :
    x.2.frameSeq.toNat = f.first + d := by
  have hp' := hp.trans (List.append_cons p x s)
  have hhi := hc.le_of_mem x (hp ▸ List.mem_append_right _ List.mem_cons_self) (by omega)
  by_contra hgt
  have heq : f.first + d + (x.2.frameSeq.toNat - (f.first + d)) = x.2.frameSeq.toNat := by
    omega
  have hprev := whole_of_le hc hp' (f.first + d) (by omega)
    (x.2.frameSeq.toNat - (f.first + d)) (heq.symm ▸ hhi) (heq.symm ▸ hw)
  rw [whole_concat_of_ne f p x _ hgt] at hprev
  have := (ht.whole _ (by omega) (by omega)).mp hprev
  omega

/-- The fragment makes the next frame whole, and it is delivered: it is the
    keyframe, or comes right after the last frame delivered. -/
theorem tracks_completed (ht : Tracks f p r d) (hc : f.Continues c) (hp : c = p ++ x :: s)
    (hnext : x.2.frameSeq.toNat = f.first + d) (a : Admission)
    (hothers : ∀ k, k ≠ x.2.frameSeq → f.first ≤ k.toNat →
      (r.prepare x.2 a).incomplete[k]? = r.incomplete[k]?)
    (hw : f.Whole (p ++ [x]) x.2.frameSeq.toNat) (r' : Reassembler)
    (hr' : r' = ((r.prepare x.2 a).sweep x.2.frameSeq).gate x.1 x.2.frameSeq
      (f.keyframe x.2.frameSeq.toNat))
    (hwf : Window.Wf 2 r'.slots) :
    Tracks f (p ++ [x]) r' (d + 1) ∧
      r'.events = r.events ++ [.Deliver x.1 x.2.frameSeq (f.keyframe (f.first + d))] := by
  have hhi := hc.le_of_mem x (hp ▸ List.mem_append_right _ List.mem_cons_self) (by omega)
  have hnewest := ht.newest
  have hmax : max r.newestComplete (x.2.frameSeq.toNat : Int) = x.2.frameSeq.toNat := by
    omega
  have hdec : f.keyframe x.2.frameSeq.toNat = true ∨
      ((r.prepare x.2 a).sweep x.2.frameSeq).lastDecoded =
        some ((x.2.frameSeq.toNat : Int) - 1) := by
    -- The first frame is the keyframe; any other comes right after the last one.
    rcases Nat.eq_zero_or_pos d with rfl | hpos
    · left
      rw [hnext]
      exact hc.first_key
    · right
      have := ht.newest_eq hpos
      rw [sweep_lastDecoded, prepare_lastDecoded, ht.decoded hpos, Option.some.injEq]
      omega
  have hevents : r'.events =
      r.events ++ [.Deliver x.1 x.2.frameSeq (f.keyframe (f.first + d))] := by
    rw [hr', gate_deliver _ _ _ _ hdec, deliver]
    simp only [sweep_events, prepare_events, hnext]
  have hnew : r'.newestComplete = x.2.frameSeq.toNat := by
    rw [hr', gate_newest, sweep_newest, prepare_newest, hmax]
  -- Later frames keep their entries: the sweep only removes what is below.
  have hlook : ∀ k : UInt32, f.first + (d + 1) ≤ k.toNat →
      r'.incomplete[k]? = r.incomplete[k]? := by
    intro k hk
    have hkx : k ≠ x.2.frameSeq := by
      rintro rfl
      omega
    rw [hr', gate_incomplete, getElem?_sweep, prepare_newest, hmax, if_pos (by omega),
      hothers k hkx (by omega)]
  refine ⟨⟨hwf, by omega, fun n hn hn' => ?_, by omega, fun _ => by omega, fun _ => ?_,
    fun k hk hst => ?_, fun k hk hst hmem => ?_, ?_⟩, hevents⟩
  · by_cases hxn : x.2.frameSeq.toNat = n
    · subst hxn
      exact ⟨fun _ => by omega, fun _ => hw⟩
    · rw [whole_concat_of_ne f p x n hxn, ht.whole n hn hn']
      omega
  · rw [hnew, hr', gate_deliver _ _ _ _ hdec]
    rfl
  · have hxk : x.2.frameSeq.toNat ≠ k.toNat := by omega
    rw [hlook k hk, FrameRun.entryOf, indices_concat_of_ne p x _ hxk]
    exact ht.started k (by omega) (((started_concat p x _).mp hst).resolve_right hxk)
  · rw [started_concat, not_or] at hst
    rw [← Std.ExtTreeMap.isSome_getElem?_iff_mem, hlook k hk,
      Std.ExtTreeMap.isSome_getElem?_iff_mem] at hmem
    exact ht.unstarted k (by omega) hst.1 hmem
  · have hin : f.first ≤ frameNum (x.2.frameSeq, f.keyframe (f.first + d)) := by
      change f.first ≤ x.2.frameSeq.toNat
      omega
    rw [hevents, deliveries_append, show deliveries [Event.Deliver x.1 x.2.frameSeq
      (f.keyframe (f.first + d))] = [(x.2.frameSeq, f.keyframe (f.first + d))] from rfl,
      deliveredFrom_concat_of_le _ _ _ hin, ht.delivered, List.range'_concat, frameNum, hnext,
      Nat.one_mul]

/-- A fragment of a frame that is not whole enters its entry. Either the frame
    is still not whole, or it is the next one and is delivered by this push. -/
theorem tracks_next (ht : Tracks f p r d) (hc : f.Continues c) (ho : f.NotOvertaken c)
    (hp : c = p ++ x :: s) (hlo : f.first + d ≤ x.2.frameSeq.toNat) :
    (Tracks f (p ++ [x]) (r.push x.1 x.2) d ∧ (r.push x.1 x.2).events = r.events) ∨
    (Tracks f (p ++ [x]) (r.push x.1 x.2) (d + 1) ∧ x.2.frameSeq.toNat = f.first + d ∧
      f.Whole (p ++ [x]) (f.first + d) ∧
      (r.push x.1 x.2).events =
        r.events ++ [.Deliver x.1 x.2.frameSeq (f.keyframe (f.first + d))]) := by
  have hfull := receive_full_iff hc hp (show f.first ≤ x.2.frameSeq.toNat by omega)
  have hwf := r.wf_push x.1 x.2 ht.wf
  rcases prepare_next ht hc ho hp hlo with ⟨a, ha, hne, hentry, hothers⟩
  rcases r.push_of_entry x.1 x.2 a _ ha hne hentry with ⟨hcard, hpush⟩ | ⟨hcard, hpush⟩
  · -- Still incomplete: the entry is stored.
    have hnot : ¬ f.Whole (p ++ [x]) x.2.frameSeq.toNat := fun h => hcard (hfull.mpr h)
    rw [hpush] at hwf ⊢
    left
    refine ⟨tracks_stored ht hlo a hothers hnot hwf, ?_⟩
    rw [store_events, prepare_events]
  · -- Complete: then every frame before it has been delivered, so it is the next.
    have hw : f.Whole (p ++ [x]) x.2.frameSeq.toNat := hfull.mp hcard
    have hnext := ht.next_of_whole hc hp hlo hw
    rcases tracks_completed ht hc hp hnext a hothers hw _ hpush hwf with ⟨htrack, hevents⟩
    exact Or.inr ⟨htrack, hnext, hnext ▸ hw, hevents⟩

/-- One push of the trace, whatever its frame. -/
theorem tracks_push (ht : Tracks f p r d) (hc : f.Continues c) (ho : f.NotOvertaken c)
    (hp : c = p ++ x :: s) :
    (Tracks f (p ++ [x]) (r.push x.1 x.2) d ∧ (0 < d → (r.push x.1 x.2).events = r.events)) ∨
    (Tracks f (p ++ [x]) (r.push x.1 x.2) (d + 1) ∧ x.2.frameSeq.toNat = f.first + d ∧
      f.Whole (p ++ [x]) (f.first + d) ∧
      (r.push x.1 x.2).events =
        r.events ++ [.Deliver x.1 x.2.frameSeq (f.keyframe (f.first + d))]) := by
  -- Below the run, below what is whole, or still to be completed.
  by_cases hold : x.2.frameSeq.toNat < f.first
  · exact Or.inl (tracks_old ht hold)
  · by_cases hdone : x.2.frameSeq.toNat < f.first + d
    · rcases tracks_done ht hc hp (by omega) hdone with ⟨htrack, hevents⟩
      exact Or.inl ⟨htrack, fun _ => hevents⟩
    · rcases tracks_next ht hc ho hp (by omega) with ⟨htrack, hevents⟩ | hnext
      · exact Or.inl ⟨htrack, fun _ => hevents⟩
      · exact Or.inr hnext

end Step

end Reassembler

end Reassembly

end LoomHost
