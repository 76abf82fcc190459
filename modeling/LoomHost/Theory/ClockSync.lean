import Mathlib.Algebra.Order.Ring.Int
import LoomHost.Core.ClockSync

/-!
# The Clock Estimate

What the filter returns is what its definition says over the whole history: the
exact round trip and offset of the latest of the fastest exchanges among the
last 16. And where the host's clock has a fixed offset to the client's, that
estimate is off by at most half its round trip, because the two one-way delays
of an exchange add up to its round trip and the error of its offset is half
their difference.

Times below `2^61` in magnitude keep the arithmetic of the source exact.

## Main definitions

* `Sample`: The four times of an exchange.
* `Sample.rtt`, `Sample.offset`: Its estimate in exact integers.
* `current`: What the last push of a sequence returns.
* `Exchange`: A sample of a fixed true offset.

## Theorems

* `toInt_divEuclid_two`: The division floors.
* `toInt_estimate`: The arithmetic is exact.
* `pushAll_window`: The window is the end of the history.
* `current_eq`, `current_latestMin`: The filter is its definition.
* `Exchange.rtt_eq`, `Exchange.offset_eq`: What an exchange measures.
* `current_accurate`: The estimate is accurate.
-/

namespace LoomHost

namespace ClockSync

open SlidingMin

/-- The four times of an exchange, small enough for exact arithmetic. -/
structure Sample where
  t0 : Int64
  t1 : Int64
  t2 : Int64
  t3 : Int64
  bounded : ∀ t ∈ [t0, t1, t2, t3], -2 ^ 61 < t.toInt ∧ t.toInt < 2 ^ 61

namespace Sample

variable (s : Sample)

/-- The round trip, in exact integers. -/
def rtt : ℤ := (s.t3.toInt - s.t0.toInt) - (s.t2.toInt - s.t1.toInt)

/-- The offset, in exact integers and rounded toward negative infinity. -/
def offset : ℤ := Int.fdiv ((s.t1.toInt - s.t0.toInt) + (s.t2.toInt - s.t3.toInt)) 2

/-- What the source makes of it. -/
def estimate : Estimate := ClockFilter.estimate s.t0 s.t1 s.t2 s.t3

end Sample

/-- The filter after a sequence of samples. -/
def ClockFilter.pushAll (f : ClockFilter) (samples : List Sample) : ClockFilter :=
  samples.foldl (fun f s => (f.push s.t0 s.t1 s.t2 s.t3).1) f

/-- What the last push of a sequence into a fresh filter returns. -/
def current (history : List Sample) (last : Sample) : Estimate :=
  ((ClockFilter.new.pushAll history).push last.t0 last.t1 last.t2 last.t3).2

section Exact

theorem toInt_sub_exact (a b : Int64) (hlo : -2 ^ 63 ≤ a.toInt - b.toInt)
    (hhi : a.toInt - b.toInt < 2 ^ 63) : (a - b).toInt = a.toInt - b.toInt := by
  rw [Int64.toInt_sub]
  exact Int.bmod_eq_of_le (by omega) (by omega)

theorem toInt_add_exact (a b : Int64) (hlo : -2 ^ 63 ≤ a.toInt + b.toInt)
    (hhi : a.toInt + b.toInt < 2 ^ 63) : (a + b).toInt = a.toInt + b.toInt := by
  rw [Int64.toInt_add]
  exact Int.bmod_eq_of_le (by omega) (by omega)

/-- The division by two floors, where the truncating one rounds toward zero. -/
theorem toInt_divEuclid_two (a : Int64) : (divEuclid a 2).toInt = a.toInt.fdiv 2 := by
  have htwo : (2 : Int64).toInt = 2 := rfl
  have hone : (1 : Int64).toInt = 1 := rfl
  have hzero : (0 : Int64).toInt = 0 := rfl
  have hlo := a.le_toInt
  have hhi := a.toInt_lt
  -- The truncated quotient and its remainder, which has the sign of `a`.
  have htrunc : 2 * a.toInt.tdiv 2 + a.toInt.tmod 2 = a.toInt := Int.mul_tdiv_add_tmod _ _
  have hlt : a.toInt.tmod 2 < 2 := Int.tmod_lt_of_pos _ (by decide)
  have hgt : -2 < a.toInt.tmod 2 := Int.lt_tmod_of_pos _ (by decide)
  have hquot : (a / 2).toInt = a.toInt.tdiv 2 := by
    rw [Int64.toInt_div, htwo]
    exact Int.bmod_eq_of_le (by omega) (by omega)
  have hrem : (a % 2).toInt = a.toInt.tmod 2 := by
    rw [Int64.toInt_mod, htwo]
  have hpos : (2 : Int64) > 0 := by decide
  rw [Int.fdiv_eq_ediv_of_nonneg _ (by decide)]
  unfold divEuclid
  dsimp only
  by_cases hneg : a % 2 < 0
  · -- The floor is one below a quotient with a negative remainder.
    rw [if_pos hneg, if_pos hpos]
    rw [Int64.lt_iff_toInt_lt, hrem, hzero] at hneg
    rw [toInt_sub_exact _ _ (by omega) (by omega), hquot, hone]
    omega
  · rw [if_neg hneg, hquot]
    rw [Int64.lt_iff_toInt_lt, hrem, hzero] at hneg
    omega

/-- The estimate of a sample is exact. -/
theorem toInt_estimate (s : Sample) :
    s.estimate.rtt.toInt = s.rtt ∧ s.estimate.offset.toInt = s.offset := by
  have h0 := s.bounded s.t0 (by simp only [List.mem_cons, List.not_mem_nil, or_false, true_or])
  have h1 := s.bounded s.t1 (by simp only [List.mem_cons, List.not_mem_nil, or_false, true_or,
    or_true])
  have h2 := s.bounded s.t2 (by simp only [List.mem_cons, List.not_mem_nil, or_false, true_or,
    or_true])
  have h3 := s.bounded s.t3 (by simp only [List.mem_cons, List.not_mem_nil, or_false, or_true])
  -- The stamps are small enough for no difference to overflow.
  have h30 := toInt_sub_exact s.t3 s.t0 (by omega) (by omega)
  have h21 := toInt_sub_exact s.t2 s.t1 (by omega) (by omega)
  have h10 := toInt_sub_exact s.t1 s.t0 (by omega) (by omega)
  have h23 := toInt_sub_exact s.t2 s.t3 (by omega) (by omega)
  constructor
  · change ((s.t3 - s.t0) - (s.t2 - s.t1)).toInt = _
    rw [toInt_sub_exact _ _ (by omega) (by omega), h30, h21]
    rfl
  · change (divEuclid ((s.t1 - s.t0) + (s.t2 - s.t3)) 2).toInt = _
    rw [toInt_divEuclid_two, toInt_add_exact _ _ (by omega) (by omega), h10, h23]
    rfl

end Exact

section History

/-- After a history the window is the end of its estimates. -/
theorem pushAll_window (history : List Sample) :
    (ClockFilter.new.pushAll history).window = (history.map Sample.estimate).rtake WINDOW := by
  have hfold (f : ClockFilter) : (f.pushAll history).window =
      (history.map Sample.estimate).foldl (slide WINDOW) f.window := by
    induction history generalizing f with
    | nil => rfl
    | cons s history ih =>
        rw [ClockFilter.pushAll, List.foldl_cons, List.map_cons, List.foldl_cons]
        exact ih _
  rw [hfold, ← foldl_slide]
  rfl

/-- The scan of a window that holds the estimates of some samples finds that of
    the latest of the fastest. -/
theorem latestMin_estimates (samples : List Sample) (best : Estimate) (rest : List Estimate)
    (h : best :: rest = samples.map Sample.estimate) :
    ∃ s, LatestMin (fun x y => x.rtt ≤ y.rtt) samples s ∧
      latestMin (fun s best => s.rtt ≤ best.rtt) best rest = s.estimate := by
  have : Std.Total fun x y : Estimate => x.rtt ≤ y.rtt := ⟨fun _ _ => Int64.le_total _ _⟩
  have : IsTrans Estimate fun x y => x.rtt ≤ y.rtt := ⟨fun _ _ _ => Int64.le_trans⟩
  have hspec : LatestMin (fun x y : Estimate => x.rtt ≤ y.rtt) (best :: rest)
      (latestMin (fun s best => s.rtt ≤ best.rtt) best rest) := latestMin_spec best rest
  rw [h] at hspec
  -- Estimates compare as the exact round trips do.
  have hle (x y : Sample) : x.estimate.rtt ≤ y.estimate.rtt ↔ x.rtt ≤ y.rtt := by
    rw [Int64.le_iff_toInt_le, (toInt_estimate x).1, (toInt_estimate y).1]
  rcases hspec.of_map Sample.estimate (fun x _ y _ => hle x y) with ⟨s, heq, hs⟩
  exact ⟨s, hs, heq⟩

/-- A push returns the estimate of the latest of the fastest samples in the
    window. -/
theorem current_eq (history : List Sample) (last : Sample) :
    ∃ s, LatestMin (fun x y => x.rtt ≤ y.rtt) ((history ++ [last]).rtake WINDOW) s ∧
      current history last = s.estimate := by
  have hwindow : slide WINDOW (ClockFilter.new.pushAll history).window last.estimate =
      ((history ++ [last]).rtake WINDOW).map Sample.estimate := by
    rw [pushAll_window, slide_rtake, ← rtake_map, List.map_append, List.map_singleton]
  have hne := slide_ne_nil WINDOW (by decide) (ClockFilter.new.pushAll history).window
    last.estimate
  exact latestMin_estimates _ _ _ ((List.cons_head_tail hne).trans hwindow)

/-- Every push returns the exact round trip and offset of the latest of the
    fastest samples among the last 16 of the history. -/
theorem current_latestMin (history : List Sample) (last : Sample) :
    ∃ s, LatestMin (fun x y => x.rtt ≤ y.rtt) ((history ++ [last]).rtake 16) s ∧
      (current history last).rtt.toInt = s.rtt ∧
      (current history last).offset.toInt = s.offset := by
  rcases current_eq history last with ⟨s, hs, heq⟩
  refine ⟨s, hs, ?_, ?_⟩
  · rw [heq, (toInt_estimate s).1]
  · rw [heq, (toInt_estimate s).2]

/-- Two equally fast samples: the later one is taken. -/
example : ((ClockFilter.new.push 0 1000 1040 100).1.push 0 2000 2040 100).2 =
    { rtt := 60, offset := 1970 } := by decide

end History

section Accuracy

/-- An exchange with a host whose clock is `theta` ahead: the one-way delays are
    not negative, and the host answers no earlier than it receives. -/
structure Exchange (theta : ℤ) extends Sample where
  d1 : ℤ
  d2 : ℤ
  delay1 : 0 ≤ d1
  delay2 : 0 ≤ d2
  received : t1.toInt = t0.toInt + d1 + theta
  answered : t1.toInt ≤ t2.toInt
  returned : t3.toInt = t2.toInt - theta + d2

namespace Exchange

variable {theta : ℤ} (x : Exchange theta)

/-- The time the host takes cancels: the round trip is the two delays. -/
theorem rtt_eq : x.rtt = x.d1 + x.d2 := by
  have hreceived := x.received
  have hreturned := x.returned
  rw [Sample.rtt]
  omega

/-- The error of the offset is half the difference of the delays. -/
theorem offset_eq : x.offset = theta + (x.d1 - x.d2) / 2 := by
  have hreceived := x.received
  have hreturned := x.returned
  rw [Sample.offset, Int.fdiv_eq_ediv_of_nonneg _ (by decide)]
  omega

end Exchange

/-- A host half a second ahead, with delays of 500 and 560 microseconds. -/
example : ∃ x : Exchange 500000, (x.rtt, x.offset) = (1060, 499970) :=
  ⟨{ t0 := 1000, t1 := 501500, t2 := 501540, t3 := 2100, bounded := by simp only [List.mem_cons,
    List.not_mem_nil, or_false, Int.reducePow, Int.reduceNeg, forall_eq_or_imp, Int64.reduceToInt,
    Int.reduceLT, and_self, forall_eq], d1 := 500,
     d2 := 560, delay1 := by decide, delay2 := by decide, received := by decide,
     answered := by decide, returned := by decide }, by decide⟩

/-- The estimate is off by at most half its round trip, which is no longer than
    that of any of the last 16 exchanges. -/
theorem current_accurate (theta : ℤ) (history : List (Exchange theta)) (last : Exchange theta) :
    let e := current (history.map Exchange.toSample) last.toSample
    0 ≤ e.rtt.toInt ∧
      -((e.rtt.toInt + 1) / 2) ≤ e.offset.toInt - theta ∧
      e.offset.toInt - theta ≤ e.rtt.toInt / 2 ∧
      ∀ x ∈ (history ++ [last]).rtake 16, e.rtt.toInt ≤ x.d1 + x.d2 := by
  rcases current_eq (history.map Exchange.toSample) last.toSample with ⟨s, hs, heq⟩
  -- The samples in the window are those of the last exchanges.
  rw [← List.map_singleton, ← List.map_append, rtake_map] at hs
  intro e
  have hrtt : e.rtt.toInt = s.rtt :=
    (congrArg (fun e => e.rtt.toInt) heq).trans (toInt_estimate s).1
  have hoffset : e.offset.toInt = s.offset :=
    (congrArg (fun e => e.offset.toInt) heq).trans (toInt_estimate s).2
  have : Std.Total fun x y : Sample => x.rtt ≤ y.rtt := ⟨fun _ _ => le_total _ _⟩
  rcases List.mem_map.mp hs.mem with ⟨x, hx, rfl⟩
  have hdelays := x.rtt_eq
  have herror := x.offset_eq
  have hd1 := x.delay1
  have hd2 := x.delay2
  refine ⟨by omega, by omega, by omega, fun y hy => ?_⟩
  have hle := hs.le_all y.toSample (List.mem_map_of_mem hy)
  rw [x.rtt_eq, y.rtt_eq] at hle
  omega

end Accuracy

end ClockSync

end LoomHost
