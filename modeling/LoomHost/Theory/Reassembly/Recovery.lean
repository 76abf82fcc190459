import LoomHost.Theory.Reassembly.Tracks

/-!
# Recovery from Any State

A keyframe newer than everything seen so far restores the stream, whatever
state the reassembler is in: a full window of old frames, earlier gaps, any
`lastDecoded`. From there on the frames are delivered one after the other, as
long as the network keeps them apart: they complete in order, and never more
than two of them are in flight.

That is not quite enough. A frame of a single fragment is never in flight
between two pushes, so it may arrive while two later frames are, and then it is
older than everything in a full window and is dropped. `NotOvertaken` excludes
that one arrival, and `overtaken_keyframe_is_lost` is a trace where it happens.

## Theorems

* `tracks_pushAll`: A trace keeps track.
* `no_request_after`, `delivered_later`: What follows the keyframe.
* `recovers`: Every frame of the run is delivered at its last fragment, in
  order, and no request follows.
* `continues_of_prefixes`: `Continues`, checked prefix by prefix.
* `overtaken_keyframe_is_lost`: Without the last condition it is not.
-/

namespace LoomHost

namespace Reassembly

namespace Reassembler

section Run

variable {f : FrameRun} {c : List (Int64 × Fragment)}

/-- Every prefix of the trace keeps track. -/
theorem tracks_pushAll (hc : f.Continues c) (ho : f.NotOvertaken c) (t : List (Int64 × Fragment)) :
    ∀ (s p : List (Int64 × Fragment)) (r : Reassembler) (d : ℕ), c = p ++ s ++ t →
      Tracks f p r d → ∃ d', Tracks f (p ++ s) (r.pushAll s) d' := by
  intro s
  induction s with
  | nil =>
      intro p r d _ ht
      rw [List.append_nil]
      exact ⟨d, ht⟩
  | cons x rest ih =>
      intro p r d hp ht
      have hp' : c = p ++ x :: (rest ++ t) := by
        rw [hp, List.append_assoc]
        rfl
      rw [List.append_cons] at hp ⊢
      -- A push completes the next frame or none.
      rcases tracks_push ht hc ho hp' with ⟨htrack, _⟩ | ⟨htrack, _⟩
      · exact ih (p ++ [x]) _ d hp htrack
      · exact ih (p ++ [x]) _ (d + 1) hp htrack

/-- Once the keyframe is delivered, a trace only adds deliveries. -/
theorem no_request_after (hc : f.Continues c) (ho : f.NotOvertaken c) :
    ∀ (s p : List (Int64 × Fragment)) (r : Reassembler) (d : ℕ), c = p ++ s → Tracks f p r d →
      0 < d → ∃ later, (r.pushAll s).events = r.events ++ later ∧
        ∀ e ∈ later, ∃ tMs seq keyframe, e = .Deliver tMs seq keyframe := by
  intro s
  induction s with
  | nil => exact fun p r d _ _ _ => ⟨[], (List.append_nil _).symm, fun e he => absurd he
      List.not_mem_nil⟩
  | cons x rest ih =>
      intro p r d hp ht hpos
      have hp' := hp.trans (List.append_cons p x rest)
      -- A push that completes nothing logs nothing once a frame has been delivered.
      rcases tracks_push ht hc ho hp with ⟨htrack, hevents⟩ | ⟨htrack, _, _, hevents⟩
      · rcases ih (p ++ [x]) _ d hp' htrack hpos with ⟨later, heq, hlater⟩
        exact ⟨later, by rw [pushAll_cons, heq, hevents hpos], hlater⟩
      · rcases ih (p ++ [x]) _ (d + 1) hp' htrack (Nat.succ_pos d) with ⟨later, heq, hlater⟩
        refine ⟨.Deliver x.1 x.2.frameSeq (f.keyframe (f.first + d)) :: later, ?_, ?_⟩
        · rw [pushAll_cons, heq, hevents, List.append_assoc]
          rfl
        · intro e he
          rcases List.mem_cons.mp he with rfl | he
          · exact ⟨_, _, _, rfl⟩
          · exact hlater e he

/-- Every frame not yet whole is delivered by a later push, the one that makes
    it whole. -/
theorem delivered_later (hc : f.Continues c) (ho : f.NotOvertaken c) :
    ∀ (s p : List (Int64 × Fragment)) (r : Reassembler) (d : ℕ), c = p ++ s → Tracks f p r d →
      ∀ n, f.first + d ≤ n → n ≤ f.first + f.more →
        ∃ q x t, s = q ++ x :: t ∧ ¬ f.Whole (p ++ q) n ∧ f.Whole (p ++ q ++ [x]) n ∧
          x.2.frameSeq.toNat = n ∧
          ((r.pushAll q).push x.1 x.2).events =
            (r.pushAll q).events ++ [.Deliver x.1 x.2.frameSeq (f.keyframe n)] := by
  intro s
  induction s with
  | nil =>
      -- At the end of the trace every frame is whole.
      intro p r d hp ht n hlo hhi
      rw [List.append_nil] at hp
      have := (ht.whole n (by omega) hhi).mp (hp ▸ hc.whole n (by omega) hhi)
      omega
  | cons x rest ih =>
      intro p r d hp ht n hlo hhi
      have hp' := hp.trans (List.append_cons p x rest)
      -- The push that delivers `n` is this one, or it is in the rest.
      have hrest : ∀ d', Tracks f (p ++ [x]) (r.push x.1 x.2) d' → f.first + d' ≤ n →
          ∃ q y t, x :: rest = q ++ y :: t ∧ ¬ f.Whole (p ++ q) n ∧ f.Whole (p ++ q ++ [y]) n ∧
            y.2.frameSeq.toNat = n ∧
            ((r.pushAll q).push y.1 y.2).events =
              (r.pushAll q).events ++ [.Deliver y.1 y.2.frameSeq (f.keyframe n)] := by
        intro d' htrack hd'
        rcases ih (p ++ [x]) _ d' hp' htrack n hd' hhi with ⟨q, y, t, hsplit, hnot, hw, hy, hev⟩
        rw [← List.append_cons] at hnot hw
        exact ⟨x :: q, y, t, by rw [hsplit]; rfl, hnot, hw, hy, hev⟩
      rcases tracks_push ht hc ho hp with ⟨htrack, _⟩ | ⟨htrack, hx, hw, hevents⟩
      · exact hrest d htrack hlo
      · by_cases hn : n = f.first + d
        · refine ⟨[], x, rest, rfl, ?_, ?_, hx.trans hn.symm, hn ▸ hevents⟩
          · rw [List.append_nil]
            intro h
            have := (ht.whole n (by omega) hhi).mp h
            omega
          · rw [List.append_nil]
            exact hn ▸ hw
        · exact hrest (d + 1) htrack (by omega)

/-- From every reachable state, a keyframe newer than everything pushed so far
    restores the stream. If the rest of the trace contains every fragment of
    the frames of a run that starts with it, and keeps them apart, then every
    frame of the run is delivered by the push that supplies its last missing
    fragment, the frames are delivered in order, and once the keyframe has been
    delivered no IDR request follows. -/
theorem recovers (f : FrameRun) (before c : List (Int64 × Fragment))
    (hbefore : ∀ x ∈ before, x.2.frameSeq.toNat < f.first) (hc : f.Continues c)
    (ho : f.NotOvertaken c) :
    (∀ n, f.first ≤ n → n ≤ f.first + f.more →
      ∃ p x s, c = p ++ x :: s ∧ ¬ f.Whole p n ∧ f.Whole (p ++ [x]) n ∧
        x.2.frameSeq.toNat = n ∧
        (((new.pushAll before).pushAll p).push x.1 x.2).events =
          ((new.pushAll before).pushAll p).events ++
            [.Deliver x.1 x.2.frameSeq (f.keyframe n)]) ∧
    deliveredFrom f.first (deliveries ((new.pushAll before).pushAll c).events) =
      List.range' f.first (f.more + 1) ∧
    (∀ p s, c = p ++ s → f.Whole p f.first →
      ∃ later, ((new.pushAll before).pushAll c).events =
          ((new.pushAll before).pushAll p).events ++ later ∧
        ∀ e ∈ later, ∃ tMs seq keyframe, e = .Deliver tMs seq keyframe) := by
  have hstart := tracks_of_below f c hc _ (wf_pushAll new before wf_new)
    (below_pushAll f.first before new hbefore (below_new f.first))
  refine ⟨fun n hlo hhi => ?_, ?_, fun p s hp hkey => ?_⟩
  · exact delivered_later hc ho c [] _ 0 rfl hstart n hlo hhi
  · -- At the end of the trace every frame of the run is whole.
    rcases tracks_pushAll hc ho [] c [] _ 0 (List.append_nil c).symm hstart with ⟨d, ht⟩
    have hall := (ht.whole (f.first + f.more) (by omega) (le_refl _)).mp
      (hc.whole _ (by omega) (le_refl _))
    have hle := ht.le
    have hd : d = f.more + 1 := by omega
    rw [← hd]
    exact ht.delivered
  · rcases tracks_pushAll hc ho s p [] _ 0 hp hstart with ⟨d, ht⟩
    have hpos := (ht.whole f.first (le_refl _) (by omega)).mp hkey
    rw [hp, pushAll_append]
    exact no_request_after hc ho s p _ d hp ht (by omega)

end Run

section Runs

/-- A prefix of a trace is one of finitely many. -/
theorem continues_of_prefixes (f : FrameRun) (c : List (Int64 × Fragment))
    (hkey : f.keyframe f.first = true)
    (hpos : ∀ j, j < f.more + 1 → 1 ≤ (f.count (f.first + j)).toNat)
    (hfrags : ∀ x ∈ c, x.2.frameSeq.toNat < f.first ∨
      (x.2.frameSeq.toNat ≤ f.first + f.more ∧
        x.2.fragCount = f.count x.2.frameSeq.toNat ∧
        x.2.keyframe = f.keyframe x.2.frameSeq.toNat ∧
        x.2.fragIndex.toNat < (f.count x.2.frameSeq.toNat).toNat))
    (hwhole : ∀ j, j < f.more + 1 → f.Whole c (f.first + j))
    (horder : ∀ k, k < c.length + 1 → ∀ j, j < f.more →
      f.Whole (c.take k) (f.first + j + 1) → f.Whole (c.take k) (f.first + j))
    (hwindow : ∀ k, k < c.length + 1 →
      ((Finset.range (f.more + 1)).filter fun j => f.InFlight (c.take k) (f.first + j)).card ≤ 2) :
    f.Continues c := by
  have hsplit : ∀ n, f.first ≤ n → f.first + (n - f.first) = n := fun n hn => by omega
  -- Every beginning of the trace is one of its finitely many prefixes.
  have htake : ∀ p s, c = p ++ s → p = c.take p.length ∧ p.length < c.length + 1 := by
    rintro p s rfl
    rw [List.take_left, List.length_append]
    exact ⟨rfl, by omega⟩
  refine ⟨hkey, fun n hlo hhi => ?_, hfrags, fun n hlo hhi => ?_, fun p s hp n hlo hhi hw => ?_,
    fun p s hp S hS => ?_⟩
  · have := hpos (n - f.first) (by omega)
    rwa [hsplit n hlo] at this
  · have := hwhole (n - f.first) (by omega)
    rwa [hsplit n hlo] at this
  · rcases htake p s hp with ⟨hpk, hlen⟩
    have := horder p.length hlen (n - f.first) (by omega)
    rw [hsplit n hlo, ← hpk] at this
    exact this hw
  · rcases htake p s hp with ⟨hpk, hlen⟩
    have hbound := hwindow p.length hlen
    rw [← hpk] at hbound
    -- The frames in flight are counted from the first one.
    refine le_trans (Finset.card_le_card_of_injOn (fun n => n - f.first) (fun n hn => ?_) ?_) hbound
    · rcases hS n hn with ⟨hlo, ⟨y, hy, hyn⟩, hnw⟩
      -- A frame in flight is one of the run.
      have hhi : n ≤ f.first + f.more := by
        rcases hfrags y (hp ▸ List.mem_append_left _ hy) with hlt | ⟨hle, _⟩ <;> omega
      have hj : n - f.first < f.more + 1 := by omega
      rw [Finset.mem_coe, Finset.mem_filter, Finset.mem_range, hsplit n hlo]
      exact ⟨hj, hlo, ⟨y, hy, hyn⟩, hnw⟩
    · intro a ha b hb hab
      have hloa := (hS a ha).1
      have hlob := (hS b hb).1
      simp only at hab
      omega

/-- A window full of old frames: frames 3 and 4, two fragments each. -/
def fullWindow : List (Int64 × Fragment) :=
  [(0, ⟨3, 0, 2, true⟩), (1, ⟨4, 1, 2, false⟩)]

/-- Frames 5, 6 and 7; the first two have two fragments each. -/
def freshRun : FrameRun :=
  { first := 5, more := 2, count := fun n => if n = 7 then 1 else 2,
    keyframe := fun n => decide (n = 5) }

/-- The fresh frames, interleaved with each other, with a duplicate and with
    the missing fragments of the old ones. -/
def freshTrace : List (Int64 × Fragment) :=
  [(10, ⟨5, 1, 2, true⟩), (11, ⟨3, 1, 2, true⟩), (12, ⟨6, 0, 2, false⟩), (13, ⟨5, 1, 2, true⟩),
    (14, ⟨5, 0, 2, true⟩), (15, ⟨4, 0, 2, false⟩), (16, ⟨6, 1, 2, false⟩), (17, ⟨7, 0, 1, false⟩)]

theorem freshTrace_continues : freshRun.Continues freshTrace :=
  continues_of_prefixes freshRun freshTrace (by decide) (by decide) (by decide) (by decide)
    (by decide) (by decide)

/-- The only single-fragment frame is the last one. -/
theorem freshTrace_not_overtaken : freshRun.NotOvertaken freshTrace := by
  intro p x s hp hlo hone _ a b _ ha _ hflight
  have hle := freshTrace_continues.le_of_inFlight hp hflight.1
  have hlast : x.2.frameSeq.toNat = 7 := by
    by_contra hne
    simp only [freshRun, hne, if_false] at hone
    exact absurd hone (by decide)
  simp only [freshRun] at hle
  omega

theorem recovers_full_window :
    (∀ x ∈ fullWindow, x.2.frameSeq.toNat < freshRun.first) ∧ freshRun.Continues freshTrace ∧
      freshRun.NotOvertaken freshTrace ∧
      deliveredFrom 5 (deliveries ((new.pushAll fullWindow).pushAll freshTrace).events) =
        [5, 6, 7] := by
  have hbefore : ∀ x ∈ fullWindow, x.2.frameSeq.toNat < freshRun.first := by decide
  exact ⟨hbefore, freshTrace_continues, freshTrace_not_overtaken,
    (recovers freshRun fullWindow freshTrace hbefore freshTrace_continues
      freshTrace_not_overtaken).2.1⟩

/-- A keyframe of one fragment and two frames of two. -/
def overtakenRun : FrameRun :=
  { first := 0, more := 2, count := fun n => if n = 0 then 1 else 2,
    keyframe := fun n => decide (n = 0) }

/-- The keyframe arrives while the two later frames are in flight. -/
def overtakenTrace : List (Int64 × Fragment) :=
  [(0, ⟨1, 0, 2, false⟩), (1, ⟨2, 0, 2, false⟩), (2, ⟨0, 0, 1, true⟩), (3, ⟨1, 1, 2, false⟩),
    (4, ⟨2, 1, 2, false⟩)]

/-- Without `NotOvertaken` a fresh keyframe can be lost: behind two later
    frames it is dropped as older than everything in the window, and none of
    the three frames is delivered. -/
theorem overtaken_keyframe_is_lost :
    overtakenRun.Continues overtakenTrace ∧
      (new.pushAll overtakenTrace).events = [.IdrRequest 3 0] ∧
      deliveredFrom 0 (deliveries (new.pushAll overtakenTrace).events) ≠ List.range' 0 3 := by
  have hevents : (new.pushAll overtakenTrace).events = [.IdrRequest 3 0] := by decide
  refine ⟨continues_of_prefixes overtakenRun overtakenTrace (by decide) (by decide) (by decide)
    (by decide) (by decide) (by decide), hevents, ?_⟩
  rw [hevents]
  decide

end Runs

end Reassembler

end Reassembly

end LoomHost
