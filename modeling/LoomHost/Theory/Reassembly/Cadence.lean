import LoomHost.Theory.Reassembly.Chain
import LoomHost.Lib.RateLimit

/-!
# The Cadence of IDR Requests

A completed frame that decoding cannot use is an attempt to request an IDR, and
the reassembler is a rate limiter with a gap of 250 ms: its requests are the
attempts granted. Recoveries in between change nothing, since a delivery leaves
the time of the last request alone.

Times are `i64` and compared by their difference; the clock is taken not to run
backwards, nor over more than an `i64` can hold.

## Main definitions

* `requests`: The requests among the events.
* `gaps`: The times at which a frame was discarded.
* `Steady`: A clock that does not run backwards.
* `IdrCadence`: The laws of the requests of a trace.

## Theorems

* `push_outcome`: What a push does to the events and the counter.
* `requests_granted`: The requests are the attempts granted.
* `idr_cadence`: The cadence of every trace.
-/

namespace LoomHost

namespace Reassembly

open RateLimit

/-- The requests among the events, with their times. -/
def requests (events : List Event) : List (Int64 × UInt32) :=
  events.filterMap fun
    | .IdrRequest tMs lastGood => some (tMs, lastGood)
    | .Deliver _ _ _ => none

theorem requests_append (a b : List Event) : requests (a ++ b) = requests a ++ requests b :=
  List.filterMap_append

/-- The frame delivered last, or 0 before any. -/
def lastGood (events : List Event) : UInt32 := ((deliveries events).getLast?.map Prod.fst).getD 0

namespace Reassembler

/-- What a push does to the events and the counter of discarded frames. -/
inductive Outcome (r : Reassembler) (tMs : Int64) (r' : Reassembler) : Prop
  | quiet (hevents : r'.events = r.events) (hlast : r'.idrLastT = r.idrLastT)
      (hgap : r'.counters.discardedGap = r.counters.discardedGap)
  | delivered (seq : UInt32) (keyframe : Bool)
      (hevents : r'.events = r.events ++ [.Deliver tMs seq keyframe])
      (hlast : r'.idrLastT = r.idrLastT)
      (hgap : r'.counters.discardedGap = r.counters.discardedGap)
  /-- Discarded, less than 250 ms after the last request. -/
  | waited (last : Int64) (hlt : tMs - last < 250) (hdue : r.idrLastT = some last)
      (hevents : r'.events = r.events) (hlast : r'.idrLastT = r.idrLastT)
      (hgap : r'.counters.discardedGap = r.counters.discardedGap + 1)
  | requested (hdue : ∀ last, r.idrLastT = some last → ¬ tMs - last < 250)
      (hevents : r'.events =
        r.events ++ [.IdrRequest tMs (UInt32.ofInt (r.lastDecoded.getD 0))])
      (hlast : r'.idrLastT = some tMs)
      (hgap : r'.counters.discardedGap = r.counters.discardedGap + 1)

section Outcome

variable (r : Reassembler) (tMs : Int64)

@[simp] theorem prepare_discardedGap (frag : Fragment) (a : Admission) :
    (r.prepare frag a).counters.discardedGap = r.counters.discardedGap := by cases a <;> rfl

@[simp] theorem prepare_idrLastT (frag : Fragment) (a : Admission) :
    (r.prepare frag a).idrLastT = r.idrLastT := by cases a <;> rfl

theorem gate_outcome (seq : UInt32) (keyframe : Bool) :
    Outcome r tMs (r.gate tMs seq keyframe) := by
  by_cases hdec : keyframe = true ∨ r.lastDecoded = some ((seq.toNat : Int) - 1)
  · rw [r.gate_deliver tMs seq keyframe hdec]
    exact Outcome.delivered seq keyframe rfl rfl rfl
  · rw [r.gate_discard tMs seq keyframe hdec]
    unfold maybeIdr
    dsimp only
    split
    · rename_i last hlast
      split
      · rename_i hlt
        exact Outcome.waited last hlt hlast rfl rfl rfl
      · rename_i hge
        refine Outcome.requested (fun last' hlast' => ?_) rfl rfl rfl
        rw [hlast, Option.some.injEq] at hlast'
        exact hlast' ▸ hge
    · rename_i hnone
      exact Outcome.requested (fun last hlast => absurd hlast (by simp only [hnone, reduceCtorEq,
        not_false_eq_true])) rfl rfl rfl

theorem push_outcome (frag : Fragment) : Outcome r tMs (r.push tMs frag) := by
  have hcases := r.push_cases tMs frag
  generalize r.push tMs frag = r' at hcases ⊢
  cases hcases with
  | stale hadm => exact Outcome.quiet rfl rfl rfl
  | pending a e hadm hne hentry hcard =>
      exact Outcome.quiet (r.prepare_events frag a) (r.prepare_idrLastT frag a)
        (r.prepare_discardedGap frag a)
  | completed a e hadm hne hentry hcard =>
      -- The entry leaves the window, which the requests know nothing of.
      have hgate := gate_outcome ((r.prepare frag a).sweep frag.frameSeq) tMs frag.frameSeq
        e.keyframe
      have hevents : ((r.prepare frag a).sweep frag.frameSeq).events = r.events :=
        r.prepare_events frag a
      have hlast : ((r.prepare frag a).sweep frag.frameSeq).idrLastT = r.idrLastT :=
        r.prepare_idrLastT frag a
      have hgap : ((r.prepare frag a).sweep frag.frameSeq).counters.discardedGap =
          r.counters.discardedGap := r.prepare_discardedGap frag a
      have hdecoded : ((r.prepare frag a).sweep frag.frameSeq).lastDecoded = r.lastDecoded :=
        r.prepare_lastDecoded frag a
      cases hgate with
      | quiet he hl hg => exact Outcome.quiet (he.trans hevents) (hl.trans hlast) (hg.trans hgap)
      | delivered seq keyframe he hl hg =>
          exact Outcome.delivered seq keyframe (he.trans (congrArg (· ++ _) hevents))
            (hl.trans hlast) (hg.trans hgap)
      | waited last hlt hdue he hl hg =>
          exact Outcome.waited last hlt (hlast ▸ hdue) (he.trans hevents) (hl.trans hlast)
            (hg.trans (congrArg (· + 1) hgap))
      | requested hdue he hl hg =>
          rw [hevents, hdecoded] at he
          exact Outcome.requested (hlast ▸ hdue) he hl (hg.trans (congrArg (· + 1) hgap))

end Outcome

/-- The times at which a trace makes the reassembler discard a frame. -/
def gaps (r : Reassembler) : List (Int64 × Fragment) → List Int64
  | [] => []
  | x :: rest =>
    (if (r.push x.1 x.2).counters.discardedGap = r.counters.discardedGap then [] else [x.1]) ++
      gaps (r.push x.1 x.2) rest

/-- A clock that does not run backwards, nor over more than an `i64` can hold. -/
def Steady (trace : List (Int64 × Fragment)) : Prop :=
  trace.Pairwise fun x y => x.1.toInt ≤ y.1.toInt ∧ y.1.toInt - x.1.toInt < 2 ^ 63

section Times

variable (r : Reassembler) (p : List (Int64 × Fragment)) (x : Int64 × Fragment)

theorem gaps_concat : r.gaps (p ++ [x]) = r.gaps p ++
    if ((r.pushAll p).push x.1 x.2).counters.discardedGap = (r.pushAll p).counters.discardedGap
    then [] else [x.1] := by
  induction p generalizing r with
  | nil => exact List.append_nil _
  | cons y p ih => rw [List.cons_append, gaps, gaps, ih, List.append_assoc, pushAll_cons]

/-- A gap happens at the time of a push. -/
theorem mem_of_mem_gaps (t : Int64) : t ∈ r.gaps p → ∃ y ∈ p, y.1 = t := by
  induction p generalizing r with
  | nil => exact fun h => absurd h List.not_mem_nil
  | cons y p ih =>
      intro h
      rcases List.mem_append.mp h with h | h
      · split at h
        · exact absurd h List.not_mem_nil
        · exact ⟨y, List.mem_cons_self, (List.mem_singleton.mp h).symm⟩
      · rcases ih _ h with ⟨z, hz, heq⟩
        exact ⟨z, List.mem_cons_of_mem y hz, heq⟩

variable {p x}

/-- The clock at the last push of a steady trace. -/
theorem Steady.last (h : Steady (p ++ [x])) (t : ℤ) (ht : t ∈ (r.gaps p).map Int64.toInt) :
    t ≤ x.1.toInt ∧ x.1.toInt - t < 2 ^ 63 := by
  rcases List.mem_map.mp ht with ⟨t', ht', rfl⟩
  rcases mem_of_mem_gaps r p t' ht' with ⟨y, hy, rfl⟩
  exact (List.pairwise_append.mp h).2.2 y hy x List.mem_cons_self

/-- The comparison of two times that are not too far apart. -/
theorem sub_lt_iff (t last : Int64) (hle : last.toInt ≤ t.toInt)
    (hspan : t.toInt - last.toInt < 2 ^ 63) :
    t - last < 250 ↔ t.toInt - last.toInt < 250 := by
  have hlimit : (250 : Int64).toInt = 250 := rfl
  rw [Int64.lt_iff_toInt_lt, Int64.toInt_sub, hlimit, Int.bmod_eq_of_le (by omega) (by omega)]

end Times

/-- The frame a request names is the one delivered last. -/
theorem Gated.request {r : Reassembler} (h : Gated r) :
    UInt32.ofInt (r.lastDecoded.getD 0) = lastGood r.events := by
  rw [h.last, lastGood]
  cases (deliveries r.events).getLast? with
  | none => rfl
  | some d =>
      have hlt := d.1.toNat_lt
      have hmod : ((d.1.toNat : ℤ) % 2 ^ 32).toNat = d.1.toNat := by omega
      change UInt32.ofNat ((d.1.toNat : ℤ) % 2 ^ 32).toNat = d.1
      rw [hmod, UInt32.ofNat_toNat]

/-- The reassembler has granted the attempts of a trace. -/
structure Limited (p : List (Int64 × Fragment)) (r : Reassembler) : Prop where
  granted : (requests r.events).map (fun q => q.1.toInt) = grants 250 ((new.gaps p).map Int64.toInt)
  last : r.idrLastT.map Int64.toInt = (grants 250 ((new.gaps p).map Int64.toInt)).getLast?
  good : ∀ u w t g, r.events = u ++ .IdrRequest t g :: w → g = lastGood u

theorem limited_new : Limited [] new :=
  ⟨rfl, rfl, fun u w t g h => by simp only [new, Int.reduceNeg, List.nil_eq, List.append_eq_nil_iff,
    reduceCtorEq, and_false] at h⟩

/-- One event more, which names the frame delivered last if it is a request. -/
theorem Limited.good_concat {p : List (Int64 × Fragment)} {r r' : Reassembler} (h : Limited p r)
    {o : Event} (ho : ∀ t g, o = .IdrRequest t g → g = lastGood r.events)
    (hevents : r'.events = r.events ++ [o]) (u w : List Event) (t : Int64) (g : UInt32)
    (heq : r'.events = u ++ .IdrRequest t g :: w) : g = lastGood u := by
  rw [hevents] at heq
  rcases List.append_eq_append_iff.mp heq with ⟨c, hu, hc⟩ | ⟨c, hu, hc⟩
  · cases c with
    | nil => exact (List.append_nil _ ▸ hu) ▸ ho t g (List.cons.inj hc).1
    | cons y c =>
        simp only [List.cons_append, List.cons.injEq, List.nil_eq, List.append_eq_nil_iff,
          reduceCtorEq, and_false] at hc
  · cases c with
    | nil => exact (List.append_nil u ▸ hu) ▸ ho t g (List.cons.inj hc).1.symm
    | cons y c => exact h.good u c t g ((List.cons.inj hc).1 ▸ hu)

/-- One push more. -/
theorem Limited.push {p : List (Int64 × Fragment)} {x : Int64 × Fragment}
    (h : Limited p (new.pushAll p)) (hsteady : Steady (p ++ [x])) :
    Limited (p ++ [x]) ((new.pushAll p).push x.1 x.2) := by
  have hout := (new.pushAll p).push_outcome x.1 x.2
  have hgaps := gaps_concat new p x
  generalize (new.pushAll p).push x.1 x.2 = r' at hout hgaps ⊢
  -- The last request is one of the times of the trace.
  have hclock (t : ℤ) (ht : (grants 250 ((new.gaps p).map Int64.toInt)).getLast? = some t) :
      t ≤ x.1.toInt ∧ x.1.toInt - t < 2 ^ 63 :=
    hsteady.last new t (mem_of_mem_grants 250 _ t (List.mem_of_getLast? ht))
  cases hout with
  | quiet hevents hlast hgap =>
      rw [if_pos hgap, List.append_nil] at hgaps
      refine ⟨?_, ?_, ?_⟩
      · rw [hevents, hgaps, h.granted]
      · rw [hlast, hgaps, h.last]
      · exact hevents ▸ h.good
  | delivered seq keyframe hevents hlast hgap =>
      rw [if_pos hgap, List.append_nil] at hgaps
      refine ⟨?_, ?_, h.good_concat (fun t g => Event.noConfusion) hevents⟩
      · rw [hevents, hgaps, requests_append, List.map_append, h.granted]
        exact List.append_nil _
      · rw [hlast, hgaps, h.last]
  | waited last hlt hdue hevents hlast hgap =>
      rw [if_neg (by omega)] at hgaps
      have hgranted : (grants 250 ((new.gaps p).map Int64.toInt)).getLast? = some last.toInt := by
        rw [← h.last, hdue]
        rfl
      rcases hclock _ hgranted with ⟨hle, hspan⟩
      have hrefused := grant_of_lt 250 hgranted ((sub_lt_iff x.1 last hle hspan).mp hlt)
      have hsame : grants 250 ((new.gaps (p ++ [x])).map Int64.toInt) =
          grants 250 ((new.gaps p).map Int64.toInt) := by
        rw [hgaps, List.map_append, List.map_singleton, grants_concat, hrefused]
      refine ⟨?_, ?_, ?_⟩
      · rw [hevents, hsame, h.granted]
      · rw [hlast, hsame, h.last]
      · exact hevents ▸ h.good
  | requested hdue hevents hlast hgap =>
      rw [if_neg (by omega)] at hgaps
      have hpassed : ∀ last, (grants 250 ((new.gaps p).map Int64.toInt)).getLast? = some last →
          250 ≤ x.1.toInt - last := by
        intro last hgranted
        rcases hclock last hgranted with ⟨hle, hspan⟩
        rw [← h.last, Option.map_eq_some_iff] at hgranted
        rcases hgranted with ⟨last, hsome, rfl⟩
        exact not_lt.mp (fun hlt => hdue last hsome ((sub_lt_iff x.1 last hle hspan).mpr hlt))
      have hmore : grants 250 ((new.gaps (p ++ [x])).map Int64.toInt) =
          grants 250 ((new.gaps p).map Int64.toInt) ++ [x.1.toInt] := by
        rw [hgaps, List.map_append, List.map_singleton, grants_concat, grant_of_le 250 hpassed]
      refine ⟨?_, ?_, h.good_concat (fun t g heq => ?_) hevents⟩
      · rw [hevents, hmore, requests_append, List.map_append, h.granted]
        rfl
      · rw [hlast, hmore, List.getLast?_concat]
        rfl
      · rw [← (Event.IdrRequest.inj heq).2]
        exact (gated_pushAll p).request

/-- The requests of a steady trace are the attempts granted. -/
theorem requests_granted (trace : List (Int64 × Fragment)) (hsteady : Steady trace) :
    Limited trace (new.pushAll trace) := by
  induction trace using List.reverseRecOn with
  | nil => exact limited_new
  | append_singleton p x ih =>
      rw [pushAll_append]
      exact (ih (List.pairwise_append.mp hsteady).1).push hsteady

/-- The laws of the requests of a trace. -/
structure IdrCadence (trace : List (Int64 × Fragment)) : Prop where
  /-- Requests are 250 ms apart, one by one. -/
  spaced : ∀ i j (_ : i < j) (hj : j < (requests (new.pushAll trace).events).length),
    250 * ((j : ℤ) - i) ≤ (requests (new.pushAll trace).events)[j].1.toInt -
      (requests (new.pushAll trace).events)[i].1.toInt
  /-- A frame is discarded within 250 ms of a request. -/
  covered : ∀ p x s, trace = p ++ x :: s →
    (new.pushAll (p ++ [x])).counters.discardedGap ≠ (new.pushAll p).counters.discardedGap →
    ∃ t g, .IdrRequest t g ∈ (new.pushAll (p ++ [x])).events ∧
      x.1.toInt - 250 < t.toInt ∧ t.toInt ≤ x.1.toInt
  /-- A request names the frame delivered last. -/
  lastGood : ∀ u w t g, (new.pushAll trace).events = u ++ .IdrRequest t g :: w → g = lastGood u

theorem mem_requests {events : List Event} {q : Int64 × UInt32} (h : q ∈ requests events) :
    .IdrRequest q.1 q.2 ∈ events := by
  rcases List.mem_filterMap.mp h with ⟨e, he, heq⟩
  cases e with
  | Deliver tMs seq keyframe => simp only [reduceCtorEq] at heq
  | IdrRequest tMs lastGood => exact Option.some.inj heq ▸ he

/-- The cadence of every steady trace. -/
theorem idr_cadence (trace : List (Int64 × Fragment)) (hsteady : Steady trace) :
    IdrCadence trace := by
  have hlimited := requests_granted trace hsteady
  refine ⟨fun i j hij hj => ?_, fun p x s heq hgap => ?_, hlimited.good⟩
  · have hlen := congrArg List.length hlimited.granted
    rw [List.length_map] at hlen
    have hspaced := grants_spaced 250 ((new.gaps trace).map Int64.toInt) i j (by omega) (by omega)
    simpa only [← hlimited.granted, List.getElem_map] using hspaced
  · -- The times before this push are those of a shorter trace.
    have hbefore : Steady (p ++ [x]) := by
      refine hsteady.sublist (heq ▸ ?_)
      exact List.Sublist.append_left (List.singleton_sublist.mpr List.mem_cons_self) p
    have hgaps := gaps_concat new p x
    rw [pushAll_append, pushAll_cons, pushAll_nil] at hgap
    rw [if_neg hgap] at hgaps
    rcases grants_cover 250 (by decide) ((new.gaps p).map Int64.toInt) x.1.toInt
      (fun a ha => (hbefore.last new a ha).1) with ⟨g, hg, hlo, hhi⟩
    have hmap : (new.gaps p).map Int64.toInt ++ [x.1.toInt] =
        (new.gaps (p ++ [x])).map Int64.toInt := by
      rw [hgaps, List.map_append, List.map_singleton]
    rw [hmap, ← (requests_granted (p ++ [x]) hbefore).granted] at hg
    rcases List.mem_map.mp hg with ⟨q, hq, rfl⟩
    exact ⟨q.1, q.2, mem_requests hq, hlo, hhi⟩

/-- A frame discarded at once, one soon after it and one later. -/
theorem idr_cadence_three :
    IdrCadence [(10, ⟨5, 0, 1, false⟩), (100, ⟨7, 0, 1, false⟩), (260, ⟨9, 0, 1, false⟩)] :=
  idr_cadence _ (by unfold Steady; decide)

end Reassembler

end Reassembly

end LoomHost
