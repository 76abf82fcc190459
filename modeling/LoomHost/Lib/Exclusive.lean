import LoomHost.Lib.Machine

/-!
# Tasks That Take Turns

Tasks share a number of permits, and hold one while they work. The permits left
and the holders together are as many as there were permits, so that under one
permit there is one holder at most.

What tasks do one after the other is a list of blocks, one for each task that
has begun: the actions of the task, the state it has come to, and its trace. A
history in which every task has one block is serial: nothing of one task comes
between two events of another, and what there is of one task is a run of that
task alone.

## Main definitions

* `Balanced`: The permits of a pool of tasks.
* `Block`, `Serial`: A serial history.

## Theorems

* `Balanced.acquire`, `Balanced.release`: A permit is taken or given back.
* `Balanced.unique`: Under one permit there is one holder.
* `Serial.begins`, `Serial.steps`: A task begins, and the last one goes on.
* `Serial.alone`: The part of one task.
* `Serial.contiguous`: Nothing comes in between.
-/

namespace LoomHost

namespace Exclusive

section Permits

variable {τ : Type*} (holds : τ → Bool)

/-- The permits left, and one for each holder. -/
def Balanced (permits available : ℕ) (tasks : List τ) : Prop :=
  available + tasks.countP holds = permits

variable {permits available i j : ℕ} {tasks : List τ} {s : τ}

/-- The holders, when one task changes. -/
theorem countP_set_add (t : τ) (h : tasks[i]? = some s) :
    (tasks.set i t).countP holds + (if holds s then 1 else 0) =
      tasks.countP holds + (if holds t then 1 else 0) := by
  rcases List.getElem?_eq_some_iff.mp h with ⟨hlt, rfl⟩
  have hle := List.boole_getElem_le_countP (p := holds) hlt
  rw [List.countP_set hlt]
  omega

variable {holds} {t : τ}

/-- A new task holds no permit. -/
theorem Balanced.push (h : Balanced holds permits available tasks) (ht : holds t = false) :
    Balanced holds permits available (tasks ++ [t]) := by
  unfold Balanced at h ⊢
  rw [List.countP_append, List.countP_singleton, ht]
  exact h

/-- A task goes on with its permit, or without one. -/
theorem Balanced.same (h : Balanced holds permits available tasks) (hi : tasks[i]? = some s)
    (hst : holds t = holds s) : Balanced holds permits available (tasks.set i t) := by
  have hcount := countP_set_add holds t hi
  unfold Balanced at h ⊢
  rw [hst] at hcount
  omega

/-- A task takes a permit. -/
theorem Balanced.acquire (h : Balanced holds permits (available + 1) tasks)
    (hi : tasks[i]? = some s) (hs : holds s = false) (ht : holds t = true) :
    Balanced holds permits available (tasks.set i t) := by
  have hcount := countP_set_add holds t hi
  unfold Balanced at h ⊢
  simp only [hs, ht] at hcount
  simp only [Bool.false_eq_true, ↓reduceIte, Nat.add_zero] at hcount
  omega

/-- A task gives its permit back. -/
theorem Balanced.release (h : Balanced holds permits available tasks) (hi : tasks[i]? = some s)
    (hs : holds s = true) (ht : holds t = false) :
    Balanced holds permits (available + 1) (tasks.set i t) := by
  have hcount := countP_set_add holds t hi
  unfold Balanced at h ⊢
  simp only [hs, ht] at hcount
  simp only [↓reduceIte, Bool.false_eq_true, Nat.add_zero] at hcount
  omega

/-- When no permit is left, somebody holds one. -/
theorem Balanced.exists_holder (h : Balanced holds permits 0 tasks) (hpos : 0 < permits) :
    ∃ (i : ℕ) (t : τ), tasks[i]? = some t ∧ holds t = true := by
  unfold Balanced at h
  rw [Nat.zero_add] at h
  rcases List.countP_pos_iff.mp (h ▸ hpos) with ⟨t, ht, hholds⟩
  rcases List.getElem?_of_mem ht with ⟨i, hi⟩
  exact ⟨i, t, hi, hholds⟩

/-- A holder leaves one permit less. -/
theorem Balanced.lt (h : Balanced holds permits available tasks) (hi : tasks[i]? = some s)
    (hs : holds s = true) : available < permits := by
  have hpos := List.countP_pos_iff.mpr ⟨s, List.mem_of_getElem? hi, hs⟩
  unfold Balanced at h
  omega

/-- Two holders are counted twice. -/
theorem two_le_countP (hi : tasks[i]? = some s) (hs : holds s = true) (hj : tasks[j]? = some t)
    (ht : holds t = true) (hij : i < j) : 2 ≤ tasks.countP holds := by
  have hfirst : s ∈ tasks.take j := by
    refine List.mem_of_getElem? (i := i) ?_
    rw [List.getElem?_take_of_lt hij]
    exact hi
  have hsecond : t ∈ tasks.drop j := by
    refine List.mem_of_getElem? (i := 0) ?_
    rw [List.getElem?_drop, Nat.add_zero]
    exact hj
  have hleft := List.countP_pos_iff.mpr ⟨s, hfirst, hs⟩
  have hright := List.countP_pos_iff.mpr ⟨t, hsecond, ht⟩
  rw [← List.take_append_drop j tasks, List.countP_append]
  omega

/-- Under one permit there is one holder. -/
theorem Balanced.unique (h : Balanced holds 1 available tasks) (hi : tasks[i]? = some s)
    (hs : holds s = true) (hj : tasks[j]? = some t) (ht : holds t = true) : i = j := by
  unfold Balanced at h
  rcases Nat.lt_trichotomy i j with hlt | heq | hgt
  · have htwo := two_le_countP hi hs hj ht hlt
    omega
  · exact heq
  · have htwo := two_le_countP hj ht hi hs hgt
    omega

end Permits

section Serial

variable {ι σ α ε : Type*}

/-- A task that has begun: its actions so far, the state it has come to, and its
    trace. -/
structure Block (ι σ α ε : Type*) where
  task : ι
  actions : List α
  state : σ
  trace : List ε

/-- A block in a history: its events, with the task. -/
def Block.history (b : Block ι σ α ε) : List (ι × ε) := b.trace.map fun e => (b.task, e)

variable (step : ι → σ → α → Option (σ × List ε)) (first : ι → σ)

/-- A history that is these blocks, one after the other: each is a run of its
    task from the first state, and no task has two. -/
structure Serial (blocks : List (Block ι σ α ε)) (history : List (ι × ε)) : Prop where
  history : history = blocks.flatMap Block.history
  ran : ∀ b ∈ blocks,
    Machine.exec (step b.task) (first b.task) b.actions = some (b.state, b.trace)
  distinct : (blocks.map Block.task).Nodup

variable {step first} {blocks : List (Block ι σ α ε)} {history : List (ι × ε)}

theorem Serial.nil : Serial step first [] [] :=
  ⟨rfl, fun _ hb => absurd hb List.not_mem_nil, List.nodup_nil⟩

/-- A task begins. -/
theorem Serial.begins (h : Serial step first blocks history) {i : ι}
    (hnew : i ∉ blocks.map Block.task) :
    Serial step first (blocks ++ [{ task := i, actions := [], state := first i, trace := [] }])
      history := by
  refine ⟨?_, fun b hb => ?_, ?_⟩
  · rw [List.flatMap_append, ← h.history]
    exact (List.append_nil history).symm
  · rcases List.mem_append.mp hb with hb | hb
    · exact h.ran b hb
    · rw [List.mem_singleton.mp hb]
      rfl
  · rw [List.map_append]
    refine List.nodup_append.mpr ⟨h.distinct, List.pairwise_singleton _ i, fun j hj k hk heq => ?_⟩
    rw [heq, List.mem_singleton.mp hk] at hj
    exact hnew hj

/-- The last task that has begun goes on. -/
theorem Serial.steps {b : Block ι σ α ε} (h : Serial step first (blocks ++ [b]) history) {a : α}
    {s : σ} {events : List ε} (hstep : step b.task b.state a = some (s, events)) :
    Serial step first
      (blocks ++ [{ b with actions := b.actions ++ [a], state := s, trace := b.trace ++ events }])
      (history ++ events.map fun e => (b.task, e)) := by
  refine ⟨?_, fun c hc => ?_, ?_⟩
  · rw [h.history, List.flatMap_append, List.flatMap_append, List.append_assoc]
    simp only [List.flatMap_cons, Block.history, List.flatMap_nil, List.append_nil, List.map_append]
  · rcases List.mem_append.mp hc with hc | hc
    · exact h.ran c (List.mem_append_left _ hc)
    · rw [List.mem_singleton.mp hc]
      have hbefore := h.ran b (List.mem_append_right _ List.mem_cons_self)
      exact Machine.exec_append.mpr ⟨b.state, b.trace, events, hbefore,
        Machine.exec_cons.mpr ⟨s, events, [], hstep, rfl, (List.append_nil _).symm⟩, rfl⟩
  · have hdistinct := h.distinct
    rw [List.map_append] at hdistinct ⊢
    exact hdistinct

/-- The events of one task. -/
def part [DecidableEq ι] (i : ι) (history : List (ι × ε)) : List ε :=
  history.filterMap fun x => if x.1 = i then some x.2 else none

theorem part_append [DecidableEq ι] (i : ι) (u v : List (ι × ε)) :
    part i (u ++ v) = part i u ++ part i v :=
  List.filterMap_append

theorem part_history [DecidableEq ι] (i : ι) (b : Block ι σ α ε) :
    part i b.history = if b.task = i then b.trace else [] := by
  unfold part Block.history
  rw [List.filterMap_map]
  split
  · rename_i hi
    simp only [hi, Function.comp_apply, ↓reduceIte, List.filterMap_some]
  · rename_i hi
    simp only [Function.comp_apply, hi, ↓reduceIte, List.filterMap_none]

/-- The part of a task that has not begun. -/
theorem part_of_not_mem [DecidableEq ι] {i : ι} (hi : i ∉ blocks.map Block.task) :
    part i (blocks.flatMap Block.history) = [] := by
  induction blocks with
  | nil => rfl
  | cons b blocks ih =>
      rw [List.map_cons, List.mem_cons, not_or] at hi
      rw [List.flatMap_cons, part_append, part_history, if_neg (Ne.symm hi.1), ih hi.2]
      rfl

/-- The part of a task that has begun is the trace of its block. -/
theorem part_of_mem [DecidableEq ι] (hdistinct : (blocks.map Block.task).Nodup)
    {b : Block ι σ α ε} (hb : b ∈ blocks) :
    part b.task (blocks.flatMap Block.history) = b.trace := by
  induction blocks with
  | nil => exact absurd hb List.not_mem_nil
  | cons c blocks ih =>
      rw [List.map_cons, List.nodup_cons] at hdistinct
      rw [List.flatMap_cons, part_append, part_history]
      rcases List.mem_cons.mp hb with rfl | hb
      · rw [if_pos rfl, part_of_not_mem hdistinct.1, List.append_nil]
      · -- The first block is of another task.
        have hne : c.task ≠ b.task := fun heq => hdistinct.1 (heq ▸ List.mem_map_of_mem hb)
        rw [if_neg hne, ih hdistinct.2 hb]
        rfl

/-- What there is of one task is a run of that task alone. -/
theorem Serial.alone [DecidableEq ι] (h : Serial step first blocks history) (i : ι) :
    ∃ actions state, Machine.exec (step i) (first i) actions = some (state, part i history) := by
  by_cases hi : i ∈ blocks.map Block.task
  · rcases List.mem_map.mp hi with ⟨b, hb, rfl⟩
    refine ⟨b.actions, b.state, ?_⟩
    rw [h.history, part_of_mem h.distinct hb]
    exact h.ran b hb
  · refine ⟨[], first i, ?_⟩
    rw [h.history, part_of_not_mem hi]
    rfl

theorem mem_history {b : Block ι σ α ε} {x : ι × ε} (hx : x ∈ b.history) : x.1 = b.task := by
  rcases List.mem_map.mp hx with ⟨e, -, rfl⟩
  rfl

theorem mem_tasks {x : ι × ε} (hx : x ∈ blocks.flatMap Block.history) :
    x.1 ∈ blocks.map Block.task := by
  rcases List.mem_flatMap.mp hx with ⟨b, hb, hx⟩
  exact List.mem_map.mpr ⟨b, hb, (mem_history hx).symm⟩

/-- Once an event of another task has come, there are no more of the first. -/
theorem contiguous_blocks (blocks : List (Block ι σ α ε)) :
    (blocks.map Block.task).Nodup → ∀ u y w, blocks.flatMap Block.history = u ++ y :: w →
      ∀ x ∈ u, x.1 ≠ y.1 → ∀ z ∈ w, z.1 ≠ x.1 := by
  induction blocks with
  | nil => exact fun _ u y w h => absurd h (by simp only [List.flatMap_nil, List.nil_eq,
    List.append_eq_nil_iff, reduceCtorEq, and_false, not_false_eq_true])
  | cons b blocks ih =>
      intro hdistinct u y w h x hx hxy z hz
      rw [List.map_cons, List.nodup_cons] at hdistinct
      rw [List.flatMap_cons] at h
      -- What comes after the first block is not of its task.
      have hrest (hx : x ∈ b.history) (hz : z ∈ blocks.flatMap Block.history) : z.1 ≠ x.1 := by
        rw [mem_history hx]
        exact fun heq => hdistinct.1 (heq ▸ mem_tasks hz)
      rcases List.append_eq_append_iff.mp h with ⟨c, rfl, hc⟩ | ⟨c, hb, hc⟩
      · rcases List.mem_append.mp hx with hx | hx
        · refine hrest hx ?_
          rw [hc]
          exact List.mem_append_right c (List.mem_cons_of_mem y hz)
        · exact ih hdistinct.2 c y w hc x hx hxy z hz
      · have hxb : x ∈ b.history := by
          rw [hb]
          exact List.mem_append_left c hx
        cases c with
        | nil =>
            refine hrest hxb ?_
            rw [List.nil_append] at hc
            rw [← hc]
            exact List.mem_cons_of_mem y hz
        | cons y' c =>
            -- Both events are of the first block.
            rw [List.cons_append, List.cons.injEq] at hc
            have hyb : y ∈ b.history := by
              rw [hb, hc.1]
              exact List.mem_append_right u List.mem_cons_self
            exact absurd ((mem_history hxb).trans (mem_history hyb).symm) hxy

/-- Nothing of one task comes between two events of another. -/
theorem Serial.contiguous (h : Serial step first blocks history) {u w : List (ι × ε)}
    {y : ι × ε} (heq : history = u ++ y :: w) :
    ∀ x ∈ u, x.1 ≠ y.1 → ∀ z ∈ w, z.1 ≠ x.1 :=
  contiguous_blocks blocks h.distinct u y w (h.history.symm.trans heq)

end Serial

end Exclusive

end LoomHost
