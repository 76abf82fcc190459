import LoomHost.Core.Media
import LoomHost.Lib.RateLimit

/-!
# The Pace of the Media Loop

`pace` advances its deadline by one interval, or sets it to the present if that
has passed. Either way the deadline rises by at least an interval, and it is not
before the reading of the clock. So the deadlines are a schedule: a call returns
at its deadline or later, and no later than the next deadline, whatever the turns
take and however late the sleeps end. A loop that has fallen behind does not
catch up in a burst.

The sleep is short because the deadline a call starts from has passed when it
starts.

## Theorems

* `pace_spec`: What a call makes of the deadline.
* `calls_after`: The deadlines rise by an interval, and are not before the call.
* `calls_scheduled`: The calls are a schedule.
* `calls_sleep_le`: No sleep is longer than an interval.
* `pace_rate`: The calls that return in a window of time.
-/

namespace LoomHost

namespace Media

section Step

variable (interval next clock : ℕ) (lag : Lag)

/-- The deadline rises by at least an interval, and it is the reading of the
    clock and the sleep on top of it. -/
theorem pace_spec (now : ℕ) :
    next + interval ≤ (pace next interval now).1 ∧
      (pace next interval now).1 = now + (pace next interval now).2.getD 0 := by
  unfold pace
  dsimp only
  split_ifs with h
  · exact ⟨le_refl _, by rw [Option.getD_some]; omega⟩
  · exact ⟨by omega, rfl⟩

/-- If the deadline has passed, the sleep to the next one is short. -/
theorem pace_sleep_le (now d : ℕ) (h : next ≤ now) (hd : (pace next interval now).2 = some d) :
    d ≤ interval := by
  unfold pace at hd
  dsimp only at hd
  split_ifs at hd
  rw [← Option.some.inj hd]
  omega

/-- A call, by its deadline. -/
theorem call_spec :
    clock ≤ (call interval next clock lag).next ∧
      next + interval ≤ (call interval next clock lag).next ∧
      (call interval next clock lag).next ≤ (call interval next clock lag).ret := by
  rcases pace_spec interval next (clock + lag.work) with ⟨hstep, hsleep⟩
  simp only [call]
  omega

end Step

section Run

variable (interval : ℕ)

/-- Every later call leaves a deadline at least an interval on, and not before
    the time from which it is made. -/
theorem calls_after (lags : List Lag) : ∀ (next clock : ℕ),
    ∀ c ∈ calls interval next clock lags, clock ≤ c.next ∧ next + interval ≤ c.next := by
  induction lags with
  | nil => exact fun _ _ c hc => absurd hc List.not_mem_nil
  | cons lag lags ih =>
      intro next clock c hc
      rcases call_spec interval next clock lag with ⟨hclock, hnext, hret⟩
      rcases List.mem_cons.mp hc with rfl | hc
      · exact ⟨hclock, hnext⟩
      · rcases ih _ _ c hc with ⟨hclock', hnext'⟩
        exact ⟨by omega, by omega⟩

/-- A call returns at its deadline or later. -/
theorem calls_due (lags : List Lag) : ∀ (next clock : ℕ),
    ∀ c ∈ calls interval next clock lags, c.next ≤ c.ret := by
  induction lags with
  | nil => exact fun _ _ c hc => absurd hc List.not_mem_nil
  | cons lag lags ih =>
      intro next clock c hc
      rcases List.mem_cons.mp hc with rfl | hc
      · exact (call_spec interval next clock lag).2.2
      · exact ih _ _ c hc

/-- The calls are a schedule: a call returns no later than the next deadline, and
    the deadlines are an interval apart. -/
theorem calls_scheduled (lags : List Lag) : ∀ (next clock : ℕ),
    (calls interval next clock lags).Pairwise
      fun p q => p.ret ≤ q.next ∧ p.next + interval ≤ q.next := by
  induction lags with
  | nil => exact fun _ _ => List.Pairwise.nil
  | cons lag lags ih =>
      intro next clock
      exact List.pairwise_cons.mpr ⟨fun c hc => calls_after interval lags _ _ c hc, ih _ _⟩

/-- The deadline a call starts from has passed, so it sleeps for an interval at
    most. -/
theorem calls_sleep_le (lags : List Lag) : ∀ (next clock : ℕ), next ≤ clock →
    ∀ c ∈ calls interval next clock lags, ∀ d, c.sleep = some d → d ≤ interval := by
  induction lags with
  | nil => exact fun _ _ _ c hc => absurd hc List.not_mem_nil
  | cons lag lags ih =>
      intro next clock hle c hc d hd
      rcases List.mem_cons.mp hc with rfl | hc
      · exact pace_sleep_le interval next _ d (by omega) hd
      · exact ih _ _ (call_spec interval next clock lag).2.2 c hc d hd

/-- Whatever the turns of the loop take and however late its sleeps end, a window
    of time of length `T` has at most `T / interval + 2` returns of `pace`, and no
    sleep that is asked for is longer than the interval. -/
theorem pace_rate (hinterval : 0 < interval) (start : ℕ) (lags : List Lag) :
    (∀ a T, ((runCalls interval start lags).filter
        fun c => a ≤ c.ret ∧ c.ret ≤ a + T).length ≤ T / interval + 2) ∧
      ∀ c ∈ runCalls interval start lags, ∀ d, c.sleep = some d → d ≤ interval := by
  refine ⟨fun a T => ?_, calls_sleep_le interval lags start start (le_refl start)⟩
  have hspaced : (runCalls interval start lags).Pairwise fun p q : Call =>
      (p.ret : ℤ) ≤ q.next ∧ (interval : ℤ) ≤ (q.next : ℤ) - p.next :=
    (calls_scheduled interval lags start start).imp fun h => ⟨by omega, by omega⟩
  have hdue := calls_due interval lags start start
  -- The due times of the calls of a window lie apart, and no call returns before its own.
  have hle := RateLimit.scheduled_length_le (interval : ℤ) (Int.natCast_pos.mpr hinterval)
    (fun c : Call => (c.next : ℤ)) (fun c => (c.ret : ℤ))
    (hspaced.filter fun c => a ≤ c.ret ∧ c.ret ≤ a + T)
    (fun c hc => Int.ofNat_le.mpr (hdue c (List.mem_of_mem_filter hc)))
    (a := a) (T := T) (Int.natCast_nonneg T)
    (fun c hc => by
      have hwindow := of_decide_eq_true (List.mem_filter.mp hc).2
      omega)
  rw [← Int.natCast_ediv] at hle
  omega

/-- A turn that stalls for three and a half intervals, and short ones after it. -/
theorem pace_rate_stall :
    (∀ a T, ((runCalls 10 0 [⟨1, 0⟩, ⟨35, 0⟩, ⟨1, 2⟩, ⟨1, 0⟩]).filter
        fun c => a ≤ c.ret ∧ c.ret ≤ a + T).length ≤ T / 10 + 2) ∧
      ∀ c ∈ runCalls 10 0 [⟨1, 0⟩, ⟨35, 0⟩, ⟨1, 2⟩, ⟨1, 0⟩], ∀ d, c.sleep = some d → d ≤ 10 :=
  pace_rate 10 (by decide) 0 _

end Run

end Media

end LoomHost
