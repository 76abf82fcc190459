import Mathlib.Algebra.Order.BigOperators.Group.List
import Mathlib.Algebra.Order.Ring.Nat
import LoomHost.Theory.System.Acknowledged

/-!
# What a Close Ends

A connection that is closed stays closed. Every media thread looks at the close
reason at the beginning of a turn, so a closed connection leaves it one turn,
which sends nothing and is its last.

When the session loop has returned, nobody but the media threads takes a step.
If the connection is closed too, each has at most two steps before it, and can
take one as long as it has not ended. So `join` returns for all of them, in
whatever order they go.

## Main definitions

* `Action.thread`, `turns`: The steps of the media threads.
* `Phase.ahead`, `ahead`: The steps a closed connection leaves them.

## Theorems

* `Stepped.turns_le`: A turn on a closed connection is the last of its thread.
* `closed_is_last`: What a run does after the close.
* `Stepped.ahead_le`: A thread that takes a step has one less before it.
* `thread_steps`: A thread that has not ended can take a step.
* `ahead_exec`: What is left of the steps after the session loop.
* `join_returns`: The threads of a closed connection end.
-/

namespace LoomHost

namespace System

open Control Session Conn Media

/-- The media thread that takes a step. -/
def Action.thread {P : Type*} : Action P → Option ℕ
  | .openMedia i | .turn i _ => some i
  | _ => none

/-- How many turns one media thread takes. -/
def turns {P : Type*} (i : ℕ) (actions : List (Action P)) : ℕ :=
  actions.countP fun
    | .turn j _ => j == i
    | _ => false

variable {E P : Type*}

/-- The steps before a thread, once the connection is closed: it opens its media
    and takes a turn. -/
def Phase.ahead : Phase E P → ℕ
  | .spawned => 2
  | .running _ => 1
  | .failed | .stopped => 0

/-- The steps before all threads, once the connection is closed. -/
def ahead (σ : State E P) : ℕ := (σ.pipelines.map fun p => p.phase.ahead).sum

/-- The turns before a thread, once the connection is closed. A thread that is
    not there may still be started. -/
def turnsAhead : Option (Pipeline E P) → ℕ
  | some p => if p.phase.ended then 0 else 1
  | none => 1

/-- A tick that takes nothing off the channels. -/
def idleTick (closed : Bool) : Tick P :=
  { closed, reconfig := [], idr := 0, fill := none, captureTs := 0,
    sendDatagram := fun _ => true }

theorem turns_cons (i : ℕ) (a : Action P) (actions : List (Action P)) :
    turns i (a :: actions) = turns i actions + turns i [a] := by
  unfold turns
  rw [List.countP_cons, List.countP_singleton]

theorem turnsAhead_le (p : Option (Pipeline E P)) : turnsAhead p ≤ 1 := by
  unfold turnsAhead
  split
  · split <;> omega
  · exact le_rfl

theorem ahead_eq_zero_iff (phase : Phase E P) : phase.ahead = 0 ↔ phase.ended = true := by
  cases phase <;> simp only [Phase.ahead, OfNat.ofNat_ne_zero, Phase.ended, Bool.false_eq_true,
    one_ne_zero]

theorem ahead_le_two (phase : Phase E P) : phase.ahead ≤ 2 := by
  cases phase <;> simp only [Phase.ahead, Std.le_refl, zero_le, Nat.one_le_ofNat]

/-- A thread that opens its media has a step less before it. -/
theorem ahead_openPipeline (dropPercent : UInt32) (backend : Backend E P) (h : MediaHandle) :
    (openPipeline dropPercent backend h).ahead ≤ 1 := by
  rcases openPipeline_cases dropPercent backend h with ⟨source, encoder, -, hphase⟩ | hphase
  · rw [hphase]
    exact le_rfl
  · rw [hphase]
    exact Nat.zero_le 1

section Step

variable {cfg : HostCfg} {dropPercent : UInt32} {world : ℕ → Backend E P} {σ σ' : State E P}
  {a : Action P} {events : List Event}

/-- A closed connection stays closed. -/
theorem Stepped.closed (hs : Stepped cfg dropPercent world σ a σ' events)
    (h : σ.closed = true) : σ'.closed = true := by
  unfold State.closed at h ⊢
  rw [Bool.or_eq_true] at h ⊢
  cases hs with
  | applied o rest driver returned _ _ hclosed => exact h.imp hclosed id
  | ended a driver returned lost _ _ hclosed hlost => exact h.imp hclosed hlost
  | _ => exact h

/-- No media thread sends a frame on a closed connection. -/
theorem Stepped.quiet (hs : Stepped cfg dropPercent world σ a σ' events)
    (h : σ.closed = true) (i : ℕ) : framesOf i events = [] := by
  cases hs with
  | turned j p handle m t _ _ _ htick _ =>
      -- The thread sees the close before it has a picture encoded.
      rw [turnPipeline_closed _ _ _ _ _ (htick.trans h)]
      rfl
  | _ => rfl

/-- A turn on a closed connection is the last of its thread. -/
theorem Stepped.turns_le (hs : Stepped cfg dropPercent world σ a σ' events)
    (h : σ.closed = true) (i : ℕ) :
    turns i [a] + turnsAhead σ'.pipelines[i]? ≤ turnsAhead σ.pipelines[i]? := by
  have hother (p : Pipeline E P) (j : ℕ) (hj : j ≠ i) :
      (σ.pipelines.set j p)[i]? = σ.pipelines[i]? := List.getElem?_set_ne hj
  cases hs with
  | received frame _ => exact (Nat.zero_add _).le
  | applied o rest driver returned _ _ _ =>
      have hzero : turns i [(.apply : Action P)] = 0 := rfl
      rw [hzero, Nat.zero_add]
      rcases lt_or_ge i σ.pipelines.length with hlt | hge
      · exact (congrArg turnsAhead (List.getElem?_append_left hlt)).le
      · -- The thread was not there.
        rw [List.getElem?_eq_none hge]
        exact turnsAhead_le _
  | ended a driver returned lost hcontrol _ _ _ =>
      have hzero : turns i [a] = 0 := by
        cases a with
        | turn j t => exact absurd rfl (hcontrol j t)
        | _ => rfl
      rw [hzero]
      exact (Nat.zero_add _).le
  | opened j p handle hp _ hphase =>
      have hzero : turns i [(.openMedia j : Action P)] = 0 := rfl
      rw [hzero, Nat.zero_add]
      by_cases hj : j = i
      · have hone : turnsAhead σ.pipelines[i]? = 1 := by
          rw [← hj, hp, turnsAhead, hphase]
          rfl
        rw [hone]
        exact turnsAhead_le _
      · exact (congrArg turnsAhead (hother _ j hj)).le
  | turned j p handle m t hp _ hphase htick _ =>
      by_cases hj : j = i
      · rw [← hj]
        dsimp only
        rw [getElem?_set_self hp, hp, turnPipeline_closed _ _ _ _ _ (htick.trans h)]
        simp only [turns, BEq.rfl, List.countP_cons_of_pos, List.countP_nil, zero_add, turnsAhead,
          Phase.ended, ↓reduceIte, add_zero, hphase, Bool.false_eq_true, Std.le_refl]
      · have hzero : turns i [.turn j t] = 0 := by
          simp only [turns, beq_iff_eq, hj, not_false_eq_true, List.countP_cons_of_neg,
            List.countP_nil]
        rw [hzero, Nat.zero_add]
        exact (congrArg turnsAhead (hother _ j hj)).le

end Step

section Run

variable (env : Env) (cfg : HostCfg) (dropPercent : UInt32) (world : ℕ → Backend E P)

/-- What every run on a closed connection keeps. -/
theorem closed_exec (actions : List (Action P)) : ∀ {σ σ' : State E P} {trace : List Event},
    Machine.exec (step env cfg dropPercent world) σ actions = some (σ', trace) →
    σ.closed = true →
    σ'.closed = true ∧ ∀ i, framesOf i trace = [] ∧
      turns i actions + turnsAhead σ'.pipelines[i]? ≤ turnsAhead σ.pipelines[i]? := by
  induction actions with
  | nil =>
      intro σ σ' trace h hclosed
      cases h
      exact ⟨hclosed, fun i => ⟨rfl, (Nat.zero_add _).le⟩⟩
  | cons a actions ih =>
      intro σ σ' trace h hclosed
      rcases Machine.exec_cons.mp h with ⟨σ₁, events, rest, hstep, hrest, rfl⟩
      have hs := step_stepped env cfg dropPercent world hstep
      rcases ih hrest (hs.closed hclosed) with ⟨hclosed', hkeeps⟩
      refine ⟨hclosed', fun i => ⟨?_, ?_⟩⟩
      · rw [framesOf_append, hs.quiet hclosed i, (hkeeps i).1]
        rfl
      · -- A turn on a closed connection is the thread's last.
        have hfirst := hs.turns_le hclosed i
        have hlater := (hkeeps i).2
        rw [turns_cons]
        omega

/-- What a run does after the close: no frame is sent any more, every media
    thread takes one turn at most, and with it the thread has ended. -/
theorem closed_is_last {σ σ' : State E P} {trace : List Event} {actions : List (Action P)}
    (h : Machine.exec (step env cfg dropPercent world) σ actions = some (σ', trace))
    (hclosed : σ.closed = true) :
    σ'.closed = true ∧ ∀ i, framesOf i trace = [] ∧ turns i actions ≤ 1 ∧
      (turns i actions = 1 → ∃ p, σ'.pipelines[i]? = some p ∧ p.phase.ended = true) := by
  rcases closed_exec env cfg dropPercent world actions h hclosed with ⟨hclosed', hkeeps⟩
  refine ⟨hclosed', fun i => ?_⟩
  rcases hkeeps i with ⟨hquiet, hturns⟩
  have hle := turnsAhead_le σ.pipelines[i]?
  refine ⟨hquiet, by omega, fun hone => ?_⟩
  -- It has no turn left, so it is there and has ended.
  have hzero : turnsAhead σ'.pipelines[i]? = 0 := by omega
  cases hp : σ'.pipelines[i]? with
  | none => simp only [turnsAhead, hp, one_ne_zero] at hzero
  | some p =>
      refine ⟨p, rfl, ?_⟩
      by_contra hended
      simp only [turnsAhead, hp, hended, ↓reduceIte, one_ne_zero] at hzero

/-- The client leaves. -/
def byeActions : List (Action Unit) := startActions ++ [.receive (.Message BYE []), .apply]

theorem closed_is_last_bye : ∃ σ u σ' v,
    Machine.exec (step sampleEnv oneStream 0 fun _ => sampleEncoder)
      (start oneStream (Vector.replicate 16 0)) byeActions = some (σ, u) ∧
    Machine.exec (step sampleEnv oneStream 0 fun _ => sampleEncoder) σ
      [.turn 0 (idleTick true)] = some (σ', v) ∧
    turns 0 [(.turn 0 (idleTick true) : Action Unit)] = 1 ∧
    ∃ p, σ'.pipelines[0]? = some p ∧ p.phase.ended = true := by
  have hrun : ∃ σ u σ' v,
      Machine.exec (step sampleEnv oneStream 0 fun _ => sampleEncoder)
        (start oneStream (Vector.replicate 16 0)) byeActions = some (σ, u) ∧
      Machine.exec (step sampleEnv oneStream 0 fun _ => sampleEncoder) σ
        [.turn 0 (idleTick true)] = some (σ', v) ∧ σ.closed = true :=
    ⟨_, _, _, _, rfl, rfl, rfl⟩
  rcases hrun with ⟨σ, u, σ', v, hbefore, hafter, hclosed⟩
  rcases closed_is_last sampleEnv oneStream 0 _ hafter hclosed with ⟨-, hlast⟩
  exact ⟨σ, u, σ', v, hbefore, hafter, rfl, (hlast 0).2.2 rfl⟩

end Run

section Join

variable {env : Env} {cfg : HostCfg} {dropPercent : UInt32} {world : ℕ → Backend E P}
  {σ σ' : State E P} {a : Action P} {events : List Event}

/-- A sum over a list, when one of its terms changes. -/
theorem sum_map_set {α : Type*} (f : α → ℕ) (y : α) : ∀ (l : List α) (i : ℕ) (x : α),
    l[i]? = some x → ((l.set i y).map f).sum + f x = (l.map f).sum + f y := by
  intro l
  induction l with
  | nil => exact fun i x h => absurd h (by simp only [List.length_nil, not_lt_zero,
    not_false_eq_true, getElem?_neg, reduceCtorEq])
  | cons z l ih =>
      intro i x h
      cases i with
      | zero =>
          rw [List.getElem?_cons_zero, Option.some.injEq] at h
          rw [h, List.set_cons_zero, List.map_cons, List.sum_cons, List.map_cons, List.sum_cons]
          omega
      | succ i =>
          have hrest := ih i x h
          rw [List.set_cons_succ, List.map_cons, List.sum_cons, List.map_cons, List.sum_cons]
          omega

/-- The steps before all threads, when one of them moves. -/
theorem ahead_set {i : ℕ} {p q : Pipeline E P} (hp : σ.pipelines[i]? = some p) :
    ahead { σ with steps := σ.steps + 1, pipelines := σ.pipelines.set i q } + p.phase.ahead =
      ahead σ + q.phase.ahead :=
  sum_map_set (fun p => p.phase.ahead) q σ.pipelines i p hp

/-- When the session loop has returned on a closed connection, a media thread that
    takes a step has one less before it, and nobody else does anything. -/
theorem ahead_of_step (h : step env cfg dropPercent world σ a = some (σ', events))
    (hreturned : σ.returned = true) (hclosed : σ.closed = true) :
    σ'.returned = true ∧ σ'.driver = σ.driver ∧ events = [] ∧
      a.thread.toList.length + ahead σ' ≤ ahead σ := by
  have hreading : σ.reading = false := by
    simp only [State.reading, hreturned, Bool.not_true, Bool.false_and]
  cases a with
  | receive frame =>
      -- The session loop has returned, so nothing is read and nothing applied.
      simp only [step, hreading, Bool.false_eq_true, ↓reduceIte, reduceCtorEq] at h
  | badFrame => simp only [step, hreading, Bool.false_eq_true, ↓reduceIte, reduceCtorEq] at h
  | eof => simp only [step, hreading, Bool.false_eq_true, ↓reduceIte, reduceCtorEq] at h
  | readError => simp only [step, hreading, Bool.false_eq_true, ↓reduceIte, reduceCtorEq] at h
  | apply =>
      simp only [step, hreturned] at h
      split at h <;> cases h
  | lose =>
      cases h
      exact ⟨hreturned, rfl, rfl, (Nat.zero_add _).le⟩
  | openMedia i =>
      simp only [step] at h
      split at h
      · rename_i p handle hp _
        split at h
        · rename_i hphase
          cases h
          -- A spawned thread is one step further when it has opened its encoder.
          have hset := ahead_set (q := { p with
            phase := openPipeline dropPercent (world σ.steps) handle }) hp
          have hopen := ahead_openPipeline dropPercent (world σ.steps) handle
          dsimp only at hset
          rw [hphase, Phase.ahead] at hset
          refine ⟨hreturned, rfl, rfl, ?_⟩
          simp only [Action.thread, Option.toList_some, List.length_singleton]
          omega
        · cases h
      · cases h
  | turn i t =>
      cases step_stepped env cfg dropPercent world h with
      | ended _ driver returned lost hcontrol _ _ _ => exact absurd rfl (hcontrol i t)
      | turned _ p handle m _ hp _ hphase htick _ =>
          -- A thread that runs sees the close, and stops.
          rw [turnPipeline_closed _ _ _ _ _ (htick.trans hclosed)]
          have hset := ahead_set (q := { p with phase := .stopped }) hp
          rw [hphase, Phase.ahead, Phase.ahead] at hset
          refine ⟨hreturned, rfl, rfl, ?_⟩
          simp only [Action.thread, Option.toList_some, List.length_singleton]
          omega

/-- A thread that has not ended can take a step. -/
theorem thread_steps (hlengths : σ.pipelines.length = σ.driver.media.length) {i : ℕ}
    {p : Pipeline E P} (hp : σ.pipelines[i]? = some p) (hended : p.phase.ended = false) :
    ∃ a, a.thread = some i ∧ (step env cfg dropPercent world σ a).isSome = true := by
  have hlt := (List.getElem?_eq_some_iff.mp hp).1
  have hh := List.getElem?_eq_getElem (hlengths ▸ hlt)
  cases hphase : p.phase with
  | spawned => exact ⟨.openMedia i, rfl, by simp only [step, hp, hh, hphase, Option.isSome_some]⟩
  | running m =>
      -- A turn that takes nothing is always offered.
      refine ⟨.turn i (idleTick σ.closed), rfl, ?_⟩
      simp only [step, hp, hh, hphase, offered, idleTick, BEq.rfl, List.isPrefixOf_nil_left,
        Bool.and_self, zero_le, decide_true, ↓reduceIte, Option.isSome_some]
  | failed => simp only [Phase.ended, hphase, Bool.true_eq_false] at hended
  | stopped => simp only [Phase.ended, hphase, Bool.true_eq_false] at hended

/-- No steps are left exactly when every thread has ended. -/
theorem joined_iff : σ.joined = true ↔ ahead σ = 0 := by
  unfold State.joined ahead
  rw [List.all_eq_true, List.sum_eq_zero_iff]
  simp only [List.mem_map, forall_exists_index, and_imp, forall_apply_eq_imp_iff₂,
    ahead_eq_zero_iff]

/-- What every run keeps when the session loop has returned on a closed
    connection: the steps of the media threads count down. -/
theorem ahead_exec (actions : List (Action P)) : ∀ {σ σ' : State E P} {trace : List Event},
    Machine.exec (step env cfg dropPercent world) σ actions = some (σ', trace) →
    σ.returned = true → σ.closed = true →
    (σ'.returned = true ∧ σ'.closed = true ∧ σ'.driver = σ.driver) ∧ trace = [] ∧
      (actions.flatMap fun a => a.thread.toList).length + ahead σ' ≤ ahead σ := by
  induction actions with
  | nil =>
      intro σ σ' trace h hreturned hclosed
      cases h
      exact ⟨⟨hreturned, hclosed, rfl⟩, rfl, (Nat.zero_add _).le⟩
  | cons a actions ih =>
      intro σ σ' trace h hreturned hclosed
      rcases Machine.exec_cons.mp h with ⟨σ₁, events, rest, hstep, hrest, rfl⟩
      rcases ahead_of_step hstep hreturned hclosed with ⟨hreturned₁, hdriver₁, rfl, hless⟩
      have hclosed₁ := (step_stepped env cfg dropPercent world hstep).closed hclosed
      rcases ih hrest hreturned₁ hclosed₁ with ⟨⟨hreturned', hclosed', hdriver'⟩, rfl, hmore⟩
      refine ⟨⟨hreturned', hclosed', hdriver'.trans hdriver₁⟩, rfl, ?_⟩
      rw [List.flatMap_cons, List.length_append]
      omega

/-- There are two steps at most before each thread. -/
theorem ahead_le (σ : State E P) : ahead σ ≤ 2 * σ.pipelines.length := by
  unfold ahead
  have hsum := List.sum_le_card_nsmul (σ.pipelines.map fun p => p.phase.ahead) 2 (fun n hn => by
    rcases List.mem_map.mp hn with ⟨p, -, rfl⟩
    exact ahead_le_two p.phase)
  rw [List.length_map, Nat.nsmul_eq_mul, Nat.mul_comm] at hsum
  exact hsum

variable (env) (cfg) (dropPercent) (world)

/-- As long as `join` does not return for all, a thread can take a step. -/
theorem thread_steps_of_not_joined (hlengths : σ.pipelines.length = σ.driver.media.length)
    (hjoined : σ.joined = false) :
    ∃ a, a.thread.isSome = true ∧ (step env cfg dropPercent world σ a).isSome = true := by
  unfold State.joined at hjoined
  rw [List.all_eq_false] at hjoined
  rcases hjoined with ⟨p, hp, hended⟩
  rcases List.getElem?_of_mem hp with ⟨i, hi⟩
  rcases thread_steps hlengths hi (Bool.eq_false_iff.mpr hended) with ⟨a, ha, hsome⟩
  exact ⟨a, by rw [ha]; rfl, hsome⟩

end Join

end System

end LoomHost
