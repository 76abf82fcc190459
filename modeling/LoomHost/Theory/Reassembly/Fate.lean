import LoomHost.Theory.Reassembly.Chain

/-!
# Every Frame Has One Fate

A frame number enters the in-flight window at most once, and leaves it by
being completed, evicted or cleaned up. No code checks that a frame which was
pushed out does not come back when the window shrinks again; that it does not
is the theory of bounded windows, read through `slots`. A frame that was
pushed once is settled, a settled frame is never admitted, and a frame that
was retired is shut, which is what makes its later fragments stale.

The counters then add up. `ledger` is the number of frames the counters and
the window account for, and a push raises it by one exactly when it admits a
frame.

## Main definitions

* `admits`: Whether a fragment opens a new entry.
* `admitted`: The frames a trace admits, in order.
* `accepted`: How many fragments of a trace enter an entry.
* `Completes`: A push delivers a frame or discards it at a gap.
* `Retires`: A push completes, evicts, cleans up or drops a frame.
* `ledger`: The frames the counters and the window account for.

## Theorems

* `completes_iff`: A push completes a frame exactly when it fills its entry.
* `shut_of_retires`: A retired frame is shut.
* `admitted_fresh`: What a trace admits was not settled, and is admitted once.
* `ledger_push`: A push raises the ledger by what it admits.
* `stale_push`: A push counts a stale fragment or accepts it.
* `frame_fates`: One fate for each frame, and counters that account for it.
-/

namespace LoomHost

namespace Reassembly

namespace Reassembler

/-- Whether an admission opens a new entry. -/
def Admission.opens : Admission → Bool
  | .stale => false
  | .present => false
  | .opened => true
  | .evicting _ => true

/-- Whether a fragment opens a new entry. -/
def admits (r : Reassembler) (frag : Fragment) : Bool :=
  (r.admission frag).any Admission.opens

theorem admits_eq (r : Reassembler) (frag : Fragment) (a : Admission)
    (h : r.admission frag = some a) : r.admits frag = a.opens := by
  rw [admits, h]
  rfl

/-- The frames a trace admits to the window, in order. -/
def admitted (r : Reassembler) : List (Int64 × Fragment) → List UInt32
  | [] => []
  | x :: rest =>
      (if r.admits x.2 then [x.2.frameSeq] else []) ++ (r.push x.1 x.2).admitted rest

/-- How many fragments of a trace enter an entry of the window. -/
def accepted (r : Reassembler) : List (Int64 × Fragment) → ℕ
  | [] => 0
  | x :: rest =>
      (if r.admission x.2 = some .stale then 0 else 1) + (r.push x.1 x.2).accepted rest

/-- A push completes a frame: it hands it to the decoder, or discards it because
    its predecessor was not decoded. -/
def Completes (r : Reassembler) (tMs : Int64) (frag : Fragment) : Prop :=
  (∃ seq keyframe, (r.push tMs frag).events = r.events ++ [.Deliver tMs seq keyframe]) ∨
    r.counters.discardedGap < (r.push tMs frag).counters.discardedGap

/-- A push takes a frame out of the window for good, or drops its fragment. A
    frame that was in flight and is not after the push was completed, evicted or
    cleaned up. -/
inductive Retires (r : Reassembler) (tMs : Int64) (frag : Fragment) : UInt32 → Prop
  | stale (hadm : r.admission frag = some .stale) : Retires r tMs frag frag.frameSeq
  | completed (h : r.Completes tMs frag) : Retires r tMs frag frag.frameSeq
  | left (s : UInt32) (hmem : s ∈ r.incomplete) (hgone : s ∉ (r.push tMs frag).incomplete) :
      Retires r tMs frag s

/-- A fragment enters its frame's entry and makes it full. -/
def Fills (r : Reassembler) (frag : Fragment) (a : Admission) : Prop :=
  r.admission frag = some a ∧ a ≠ .stale ∧
    ∃ e, (r.prepare frag a).incomplete[frag.frameSeq]? = some e ∧
      (e.receive frag).got.card = e.need.toNat

/-- A completed frame is booked as a delivery of its own or as a gap. -/
theorem gate_books (r : Reassembler) (tMs : Int64) (seq : UInt32) (keyframe : Bool) :
    (r.gate tMs seq keyframe).events = r.events ++ [.Deliver tMs seq keyframe] ∨
      (r.gate tMs seq keyframe).counters.discardedGap = r.counters.discardedGap + 1 := by
  by_cases hdec : keyframe = true ∨ r.lastDecoded = some ((seq.toNat : Int) - 1)
  · rw [r.gate_deliver tMs seq keyframe hdec]
    exact Or.inl rfl
  · rw [r.gate_discard tMs seq keyframe hdec, maybeIdr_counters]
    exact Or.inr rfl

/-- A push completes a frame exactly when it fills the entry of its fragment. -/
theorem completes_iff (r : Reassembler) (tMs : Int64) (frag : Fragment) :
    r.Completes tMs frag ↔ ∃ a, r.Fills frag a := by
  -- Without a delivery and without a new gap, nothing was completed.
  have hquiet : ∀ r' : Reassembler, r.push tMs frag = r' → r'.events = r.events →
      r'.counters.discardedGap = r.counters.discardedGap → ¬ r.Completes tMs frag := by
    rintro r' rfl hevents hgap (⟨seq, keyframe, hdeliver⟩ | hlt)
    · rw [hevents] at hdeliver
      exact absurd (List.self_eq_append_right.mp hdeliver) (List.cons_ne_nil _ _)
    · exact absurd hgap (Nat.ne_of_gt hlt)
  have hcases := r.push_cases tMs frag
  generalize hpush : r.push tMs frag = r' at hcases
  cases hcases with
  | stale hadm =>
      refine ⟨fun h => absurd h (hquiet _ hpush rfl rfl), ?_⟩
      rintro ⟨a, hadm', hne, -⟩
      exact absurd (Option.some.inj (hadm'.symm.trans hadm)) hne
  | pending a e hadm hne hentry hcard =>
      refine ⟨fun h => absurd h (hquiet _ hpush ?_ ?_), ?_⟩
      · rw [store_events, prepare_events]
      · rw [store_counters]
        cases a <;> rfl
      · -- The entry the fragment enters is the one it does not fill.
        rintro ⟨a', hadm', -, e', hentry', hcard'⟩
        rw [hadm, Option.some.injEq] at hadm'
        subst hadm'
        rw [hentry, Option.some.injEq] at hentry'
        subst hentry'
        exact absurd hcard' hcard
  | completed a e hadm hne hentry hcard =>
      refine ⟨fun _ => ⟨a, hadm, hne, e, hentry, hcard⟩, fun _ => ?_⟩
      have hgap : ((r.prepare frag a).sweep frag.frameSeq).counters.discardedGap =
          r.counters.discardedGap := by
        cases a <;> rfl
      have hevents : ((r.prepare frag a).sweep frag.frameSeq).events = r.events := by
        rw [sweep_events, prepare_events]
      rcases ((r.prepare frag a).sweep frag.frameSeq).gate_books tMs frag.frameSeq
        e.keyframe with hdeliver | hdiscard
      · left
        rw [hpush, hdeliver, hevents]
        exact ⟨_, _, rfl⟩
      · right
        rw [hpush, hdiscard, hgap]
        exact Nat.lt_succ_self _

/-- What a push delivers is the frame of its fragment. -/
theorem delivered_seq (r : Reassembler) (tMs : Int64) (frag : Fragment) (seq : UInt32)
    (keyframe : Bool)
    (h : (r.push tMs frag).events = r.events ++ [.Deliver tMs seq keyframe]) :
    seq = frag.frameSeq := by
  rcases (r.completes_iff tMs frag).mp (Or.inl ⟨seq, keyframe, h⟩) with
    ⟨a, hadm, hne, e, hentry, hcard⟩
  rcases r.push_of_entry tMs frag a e hadm hne hentry with ⟨hcard', -⟩ | ⟨-, hpush⟩
  · exact absurd hcard hcard'
  · rw [hpush] at h
    by_cases hdec : e.keyframe = true ∨
        ((r.prepare frag a).sweep frag.frameSeq).lastDecoded =
          some ((frag.frameSeq.toNat : Int) - 1)
    · rw [gate_deliver _ _ _ _ hdec, deliver, sweep_events, prepare_events] at h
      have hevent := List.append_cancel_left h
      rw [List.cons.injEq, Event.Deliver.injEq] at hevent
      exact hevent.1.2.1.symm
    · -- A discarded frame may raise a request, and that is not a delivery.
      rw [gate_discard _ _ _ _ hdec] at h
      rcases maybeIdr_events { (r.prepare frag a).sweep frag.frameSeq with
        counters.discardedGap :=
          ((r.prepare frag a).sweep frag.frameSeq).counters.discardedGap + 1 } tMs with
        hnone | ⟨last, hreq⟩
      · rw [hnone, sweep_events, prepare_events] at h
        exact absurd (List.self_eq_append_right.mp h) (List.cons_ne_nil _ _)
      · rw [hreq, sweep_events, prepare_events] at h
        have hevent := List.append_cancel_left h
        rw [List.cons.injEq] at hevent
        exact absurd hevent.1 Event.noConfusion

/-- A completed frame is at or below the newest complete one. -/
theorem newest_of_completes (r : Reassembler) (tMs : Int64) (frag : Fragment)
    (h : r.Completes tMs frag) :
    (r.push tMs frag).newestComplete = max r.newestComplete frag.frameSeq.toNat := by
  rcases (r.completes_iff tMs frag).mp h with ⟨a, hadm, hne, e, hentry, hcard⟩
  rcases r.push_of_entry tMs frag a e hadm hne hentry with ⟨hcard', -⟩ | ⟨-, hpush⟩
  · exact absurd hcard hcard'
  · rw [hpush, gate_newest, sweep_newest, prepare_newest]

/-- A retired frame is shut: it is at or below the newest completed frame, or
    it left the window. -/
theorem shut_of_retires (r : Reassembler) (tMs : Int64) (frag : Fragment) (s : UInt32)
    (hw : Window.Wf 2 r.slots) (h : r.Retires tMs frag s) :
    Window.Shut 2 (r.push tMs frag).slots s.toNat := by
  have hreach := r.push_reaches tMs frag hw
  cases h with
  | stale hadm => exact Window.shut_of_reaches hreach ((r.stale_iff_shut frag).mp hadm)
  | completed hc =>
      refine Or.inl ?_
      rw [mem_done, r.newest_of_completes tMs frag hc]
      exact le_max_right _ _
  | left _ hmem hgone =>
      -- What was live and is not has been done or pushed out, and is shut.
      exact Window.shut_of_reaches_left hreach ((r.mem_live _).mpr hmem)
        (fun hc => hgone ((mem_live _ _).mp hc))

/-- A fragment that opens an entry belongs to a frame that is not settled. -/
theorem not_settled_of_admits (r : Reassembler) (frag : Fragment) (h : r.admits frag = true) :
    ¬ Window.Settled 2 r.slots frag.frameSeq.toNat := by
  have hnot : frag.frameSeq ∉ r.incomplete ∧ r.admission frag ≠ some .stale := by
    rcases Option.isSome_iff_exists.mp (r.admission_isSome frag) with ⟨a, ha⟩
    rw [r.admits_eq frag a ha] at h
    rw [ha]
    cases r.admission_spec frag a ha with
    | old _ => exact absurd h Bool.false_ne_true
    | below _ _ _ _ => exact absurd h Bool.false_ne_true
    | present _ _ => exact absurd h Bool.false_ne_true
    | opened _ hmem _ => exact ⟨hmem, by simp only [ne_eq, Option.some.injEq, reduceCtorEq,
        not_false_eq_true]⟩
    | evicting _ _ hmem _ _ _ _ => exact ⟨hmem, by simp only [ne_eq, Option.some.injEq,
        reduceCtorEq, not_false_eq_true]⟩
  rintro (hlive | hshut)
  · exact hnot.1 ((r.mem_live _).mp hlive)
  · exact hnot.2 ((r.stale_iff_shut frag).mpr hshut)

/-- What a trace admits was not settled before it, and is admitted once: the
    push that admits a frame settles it, and it stays settled. -/
theorem admitted_fresh (trace : List (Int64 × Fragment)) :
    ∀ (r : Reassembler), Window.Wf 2 r.slots →
      (r.admitted trace).Nodup ∧
        ∀ s ∈ r.admitted trace, ¬ Window.Settled 2 r.slots s.toNat := by
  induction trace with
  | nil =>
      intro r _
      exact ⟨List.nodup_nil, fun s hs => absurd hs List.not_mem_nil⟩
  | cons x rest ih =>
      intro r hw
      rcases ih _ (r.wf_push x.1 x.2 hw) with ⟨hnodup, hfresh⟩
      -- Settled frames stay settled, so what is fresh later is fresh now.
      have hrest : ∀ s ∈ (r.push x.1 x.2).admitted rest, ¬ Window.Settled 2 r.slots s.toNat :=
        fun s hs hset => hfresh s hs
          (Window.settled_of_reaches (r.push_reaches x.1 x.2 hw) hset)
      rw [admitted]
      by_cases hadm : r.admits x.2 = true
      · rw [if_pos hadm, List.singleton_append]
        refine ⟨List.nodup_cons.mpr ⟨?_, hnodup⟩, fun s hs => ?_⟩
        · -- This push settles its frame, so the rest cannot admit it again.
          exact fun hs => hfresh _ hs (r.settled_push x.1 x.2)
        · rcases List.mem_cons.mp hs with rfl | hs
          · exact r.not_settled_of_admits x.2 hadm
          · exact hrest s hs
      · rw [if_neg hadm, List.nil_append]
        exact ⟨hnodup, hrest⟩

/-- The frames the counters and the window account for. -/
def ledger (r : Reassembler) : ℕ :=
  (deliveries r.events).length + r.counters.discardedGap + r.counters.droppedIncomplete +
    r.incomplete.size

/-- Gating a completed frame books it as delivered or discarded. -/
theorem ledger_gate (r : Reassembler) (tMs : Int64) (seq : UInt32) (keyframe : Bool) :
    (r.gate tMs seq keyframe).ledger = r.ledger + 1 := by
  by_cases hdec : keyframe = true ∨ r.lastDecoded = some ((seq.toNat : Int) - 1)
  · have hevents : (deliveries (r.deliver tMs seq keyframe).events).length =
        (deliveries r.events).length + 1 := by
      rw [deliver, deliveries_append, List.length_append]
      rfl
    have hbook : (r.deliver tMs seq keyframe).ledger =
        (deliveries (r.deliver tMs seq keyframe).events).length + r.counters.discardedGap +
          r.counters.droppedIncomplete + r.incomplete.size := rfl
    rw [r.gate_deliver tMs seq keyframe hdec, hbook, hevents, ledger]
    omega
  · rw [r.gate_discard tMs seq keyframe hdec, ledger, deliveries_maybeIdr, maybeIdr_counters,
      maybeIdr_incomplete, ledger]
    simp only
    omega

/-- An admission books the frame it opens, and an eviction moves the frame it
    removes from the window to the counters. -/
theorem ledger_prepare (r : Reassembler) (frag : Fragment) (a : Admission)
    (h : r.admission frag = some a) :
    (r.prepare frag a).ledger = r.ledger + if r.admits frag then 1 else 0 := by
  rw [r.admits_eq frag a h]
  cases r.admission_spec frag a h with
  | old _ => rfl
  | below _ _ _ _ => rfl
  | present _ _ => rfl
  | opened _ hmem _ =>
      have hsize : (r.insert frag).incomplete.size = r.incomplete.size + 1 := by
        rw [insert, Std.ExtTreeMap.size_insert,
          if_neg (fun hc => hmem (Std.ExtTreeMap.contains_iff_mem.mp hc))]
      have hbook : (r.prepare frag .opened).ledger = (deliveries r.events).length +
          r.counters.discardedGap + r.counters.droppedIncomplete +
          (r.insert frag).incomplete.size := rfl
      rw [hbook, hsize, ledger]
      simp only [Admission.opens, if_true]
      omega
  | evicting oldest _ hmem _ hold _ _ =>
      -- One frame out, one frame in: the window keeps its size.
      have hsize : ((r.evict oldest).insert frag).incomplete.size = r.incomplete.size := by
        have hpos : 0 < r.incomplete.size := by
          rw [← OrdMap.card_keySet]
          exact Finset.card_pos.mpr ⟨oldest, (OrdMap.mem_keySet _ _).mpr hold⟩
        have hmem' : frag.frameSeq ∉ (r.evict oldest).incomplete :=
          fun hc => hmem ((r.mem_evict oldest _).mp hc).2
        rw [insert, Std.ExtTreeMap.size_insert,
          if_neg (fun hc => hmem' (Std.ExtTreeMap.contains_iff_mem.mp hc)), evict,
          Std.ExtTreeMap.size_erase, if_pos (Std.ExtTreeMap.contains_iff_mem.mpr hold)]
        omega
      have hbook : (r.prepare frag (.evicting oldest)).ledger = (deliveries r.events).length +
          r.counters.discardedGap + (r.counters.droppedIncomplete + 1) +
          ((r.evict oldest).insert frag).incomplete.size := rfl
      rw [hbook, hsize, ledger]
      simp only [Admission.opens, if_true]
      omega

/-- A push raises the ledger by one exactly when it admits a frame. -/
theorem ledger_push (r : Reassembler) (tMs : Int64) (frag : Fragment) :
    (r.push tMs frag).ledger = r.ledger + if r.admits frag then 1 else 0 := by
  have hcases := r.push_cases tMs frag
  generalize r.push tMs frag = r' at hcases ⊢
  cases hcases with
  | stale hadm =>
      rw [← r.ledger_prepare frag .stale hadm]
      rfl
  | pending a e hadm hne hentry hcard =>
      have hmem := r.mem_of_prepare frag a hadm hne
      have hsize : ((r.prepare frag a).store frag e).incomplete.size =
          (r.prepare frag a).incomplete.size := by
        rw [store, Std.ExtTreeMap.size_insert,
          if_pos (Std.ExtTreeMap.contains_iff_mem.mpr hmem)]
      rw [← r.ledger_prepare frag a hadm, ledger, hsize]
      rfl
  | completed a e hadm hne hentry hcard =>
      -- The sweep books every frame it removes but the completed one, and
      -- gating books that one.
      have hsize := (r.prepare frag a).size_sweep frag.frameSeq (r.mem_of_prepare frag a hadm hne)
      have hgap : ((r.prepare frag a).sweep frag.frameSeq).counters.discardedGap =
          (r.prepare frag a).counters.discardedGap := rfl
      rw [ledger_gate, ← r.ledger_prepare frag a hadm, ledger, ledger, sweep_events, hgap]
      omega

/-- A push counts its fragment as stale or accepts it into an entry. -/
theorem stale_push (r : Reassembler) (tMs : Int64) (frag : Fragment) :
    (r.push tMs frag).counters.staleFragments =
      r.counters.staleFragments + if r.admission frag = some .stale then 1 else 0 := by
  have hadmit : ∀ a, (r.prepare frag a).counters.staleFragments = r.counters.staleFragments := by
    intro a
    cases a <;> rfl
  have hgate : ∀ (r : Reassembler) seq keyframe,
      (r.gate tMs seq keyframe).counters.staleFragments = r.counters.staleFragments := by
    intro r seq keyframe
    unfold gate
    split_ifs
    · rfl
    · rfl
    · rw [maybeIdr_counters]
  have hcases := r.push_cases tMs frag
  generalize r.push tMs frag = r' at hcases ⊢
  cases hcases with
  | stale hadm =>
      rw [if_pos hadm]
      rfl
  | pending a e hadm hne hentry hcard =>
      rw [if_neg (by rw [hadm, Option.some.injEq]; exact hne), store_counters, hadmit]
      rfl
  | completed a e hadm hne hentry hcard =>
      -- What the sweep drops is counted elsewhere.
      rw [if_neg (by rw [hadm, Option.some.injEq]; exact hne), hgate]
      exact hadmit a

theorem ledger_pushAll (trace : List (Int64 × Fragment)) :
    ∀ (r : Reassembler), (r.pushAll trace).ledger = r.ledger + (r.admitted trace).length := by
  induction trace with
  | nil => exact fun r => rfl
  | cons x rest ih =>
      intro r
      rw [pushAll_cons, ih, ledger_push, admitted, List.length_append]
      split_ifs
      · simp only [List.length_singleton]
        omega
      · simp only [List.length_nil]
        omega

theorem stale_pushAll (trace : List (Int64 × Fragment)) :
    ∀ (r : Reassembler), (r.pushAll trace).counters.staleFragments + r.accepted trace =
      r.counters.staleFragments + trace.length := by
  induction trace with
  | nil => exact fun r => rfl
  | cons x rest ih =>
      intro r
      have hrest := ih (r.push x.1 x.2)
      rw [stale_push] at hrest
      rw [pushAll_cons, accepted, List.length_cons]
      split_ifs at hrest ⊢ <;> omega

/-- Every frame has one fate, and the counters account for it. A trace admits
    no frame twice; once a push has completed, evicted or cleaned up a frame or
    dropped a fragment of it as stale, a later push of one of its fragments
    only counts it as stale; the frames admitted are those delivered,
    discarded, dropped or still in the window; and the fragments are those
    counted as stale or accepted into an entry. -/
theorem frame_fates (trace : List (Int64 × Fragment)) :
    (new.admitted trace).Nodup ∧
    (∀ pre x mid y post, trace = pre ++ x :: mid ++ y :: post →
      (new.pushAll pre).Retires x.1 x.2 y.2.frameSeq →
      (new.pushAll (pre ++ x :: mid)).push y.1 y.2 =
        (new.pushAll (pre ++ x :: mid)).dropStale) ∧
    (new.admitted trace).toFinset.card =
      (deliveries (new.pushAll trace).events).length +
        (new.pushAll trace).counters.discardedGap +
        (new.pushAll trace).counters.droppedIncomplete +
        (new.pushAll trace).incomplete.size ∧
    (new.pushAll trace).counters.staleFragments + new.accepted trace = trace.length := by
  have hnodup := (admitted_fresh trace new wf_new).1
  refine ⟨hnodup, ?_, ?_, ?_⟩
  · -- Retired is shut, shut stays shut, and a fragment of a shut frame is stale.
    intro pre x mid y post _ hret
    have hw := wf_pushAll new pre wf_new
    have hshut := shut_of_retires _ x.1 x.2 _ hw hret
    have hlater := Window.shut_of_reaches
      (pushAll_reaches mid _ (wf_push _ x.1 x.2 hw)) hshut
    rw [pushAll_append, pushAll_cons]
    exact push_stale _ _ _ ((stale_iff_shut _ _).mpr hlater)
  · rw [List.toFinset_card_of_nodup hnodup]
    have hledger := ledger_pushAll trace new
    have hzero : new.ledger = 0 := rfl
    rw [hzero, Nat.zero_add] at hledger
    exact hledger.symm
  · have hstale := stale_pushAll trace new
    have hzero : new.counters.staleFragments = 0 := rfl
    rw [hzero, Nat.zero_add] at hstale
    exact hstale

end Reassembler

end Reassembly

end LoomHost
