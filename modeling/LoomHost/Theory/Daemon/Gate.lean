import LoomHost.Core.Daemon
import LoomHost.Lib.Exclusive
import LoomHost.Theory.System.Acknowledged

/-!
# One Session at a Time

The slot has one permit, and a task drives its session only while it has it. A
client is told that the host is busy exactly while another connection has the
permit. What is seen at the gate, who gets the permit, who is turned away and who
gives the permit back, follows from where the tasks are, whatever the order in
which they take their steps.

## Main definitions

* `Moved`, `Stepped`: What a step does.
* `sessions`, `gate`: The parts of a trace.
* `Gated`: The slot and what has been seen at it.
* `Admits`: What the slot lets happen.

## Theorems

* `step_stepped`: The steps are those of `step`.
* `gated_exec`: The slot in every run.
* `one_session_at_a_time`: What the slot lets happen in every run.
-/

namespace LoomHost

namespace Daemon

open Cbor Control Session Conn Media Exclusive

section Step

variable {E P : Type*} (envs : ℕ → Env) (cfg : HostCfg) (dropPercent : UInt32)
  (worlds : ℕ → ℕ → Backend E P)

/-- What a step does to the task that takes it, and to the permits left. -/
inductive Moved (i : ℕ) : Task E P → ℕ → Task E P → ℕ → List Event → Prop
  | handshake (ok : Bool) (slot : ℕ) :
      Moved i .handshaking slot (if ok then .connected else .failed) slot []
  | acquired (slot left : ℕ) (hslot : slot = left + 1) :
      Moved i .connected slot .accepting left [.acquired i]
  | busy (slot : ℕ) (hslot : slot = 0) : Moved i .connected slot .rejecting slot [.busy i]
  | accepted (slot : ℕ) : Moved i .accepting slot (.serving (first envs cfg i)) slot []
  /-- The control stream does not come. -/
  | lost (slot : ℕ) : Moved i .accepting slot .served (slot + 1) [.released i]
  | session (a : System.Action P) (σ σ' : System.State E P) (events : List System.Event)
      (slot : ℕ)
      (hstep : System.step (envs i) cfg dropPercent (worlds i) σ a = some (σ', events)) :
      Moved i (.serving σ) slot (.serving σ') slot (events.map (.session i))
  | finished (σ : System.State E P) (slot : ℕ) (hreturned : σ.returned = true)
      (hjoined : σ.joined = true) : Moved i (.serving σ) slot .served (slot + 1) [.released i]
  | rejected (slot : ℕ) : Moved i .rejecting slot (.rejected (rejectBusy (envs i))) slot
      [.rejected i (rejectBusy (envs i))]

/-- What a step does. -/
inductive Stepped (δ : State E P) : State E P → List Event → Prop
  | incoming : Stepped δ { δ with tasks := δ.tasks ++ [.handshaking] } []
  | shut : Stepped δ { δ with listening := false } []
  | moved (i : ℕ) (s t : Task E P) (slot : ℕ) (events : List Event) (hi : δ.tasks[i]? = some s)
      (hmoved : Moved envs cfg dropPercent worlds i s δ.slot t slot events) :
      Stepped δ { δ with slot, tasks := δ.tasks.set i t } events

/-- The steps are those of `step`. -/
theorem step_stepped {δ δ' : State E P} {a : Action P} {events : List Event}
    (h : step envs cfg dropPercent worlds δ a = some (δ', events)) :
    Stepped envs cfg dropPercent worlds δ δ' events := by
  cases a with
  | incoming =>
      simp only [step, Option.ite_none_right_eq_some] at h
      cases h.2
      exact Stepped.incoming
  | shut =>
      simp only [step, Option.ite_none_right_eq_some] at h
      cases h.2
      exact Stepped.shut
  | handshake i ok =>
      simp only [step] at h
      split at h
      · rename_i hi
        cases h
        -- A task takes a step of its own, from the state it is in.
        exact Stepped.moved i _ _ _ _ hi (Moved.handshake ok δ.slot)
      · cases h
  | tryAcquire i =>
      simp only [step, tryAcquire] at h
      split at h
      · rename_i hi
        split at h
        · -- The permit is free, and is taken.
          rename_i left hslot
          cases h
          exact Stepped.moved i _ _ _ _ hi (Moved.acquired δ.slot left hslot)
        · -- There is none, and the connection is to be rejected.
          rename_i hslot
          cases h
          exact Stepped.moved i _ _ _ _ hi (Moved.busy δ.slot hslot)
      · cases h
  | acceptBi i =>
      simp only [step, release] at h
      split at h
      · rename_i hi
        split at h
        · cases h
          -- The control stream comes, or it does not and the permit is dropped.
          exact Stepped.moved i _ _ _ _ hi (Moved.accepted δ.slot)
        · cases h
          exact Stepped.moved i _ _ _ _ hi (Moved.lost δ.slot)
      · cases h
  | session i a =>
      simp only [step] at h
      split at h
      · rename_i σ hi
        split at h
        · rename_i σ' events hstep
          cases h
          -- A step of the session is one of the system of that connection.
          exact Stepped.moved i _ _ _ _ hi (Moved.session a σ σ' events δ.slot hstep)
        · cases h
      · cases h
  | finish i =>
      simp only [step, release] at h
      split at h
      · rename_i σ hi
        rw [Option.ite_none_right_eq_some, Bool.and_eq_true] at h
        -- The loop has returned, and every thread is joined.
        cases h.2
        exact Stepped.moved i _ _ _ _ hi (Moved.finished σ δ.slot h.1.1 h.1.2)
      · cases h
  | reject i =>
      simp only [step] at h
      split at h
      · rename_i hi
        cases h
        exact Stepped.moved i _ _ _ _ hi (Moved.rejected δ.slot)
      · cases h

end Step

section Trace

/-- The steps of sessions, with their connections. -/
def sessions (trace : List Event) : List (ℕ × System.Event) :=
  trace.filterMap fun
    | .session i e => some (i, e)
    | _ => none

/-- An event of one connection at the slot. -/
def Event.atGate (i : ℕ) : Event → Bool
  | .acquired j | .released j | .busy j | .rejected j _ => j == i
  | .session _ _ => false

/-- What has been seen of one connection at the slot. -/
def gate (i : ℕ) (trace : List Event) : List Event := trace.filter (Event.atGate i)

/-- What a task has been through at the slot. -/
def Task.gate {E P : Type*} (i : ℕ) : Task E P → List Event
  | .accepting | .serving _ => [.acquired i]
  | .served => [.acquired i, .released i]
  | .rejecting => [.busy i]
  | .rejected d => [.busy i, .rejected i d]
  | _ => []

/-- What a connection has been through at the slot, also one that has not come. -/
def gated {E P : Type*} (i : ℕ) : Option (Task E P) → List Event
  | some t => t.gate i
  | none => []

theorem sessions_append (u v : List Event) : sessions (u ++ v) = sessions u ++ sessions v :=
  List.filterMap_append

theorem sessions_session (i : ℕ) (events : List System.Event) :
    sessions (events.map (.session i)) = events.map fun e => (i, e) := by
  unfold sessions
  rw [List.filterMap_map]
  exact congrFun List.filterMap_eq_map events

theorem gate_append (i : ℕ) (u v : List Event) : gate i (u ++ v) = gate i u ++ gate i v :=
  List.filter_append _ _

theorem gate_session (i j : ℕ) (events : List System.Event) :
    gate i (events.map (.session j)) = [] := by
  refine List.filter_eq_nil_iff.mpr (fun e he => ?_)
  rcases List.mem_map.mp he with ⟨e', -, rfl⟩
  exact Bool.false_ne_true

theorem acquired_mem_iff (i : ℕ) (trace : List Event) :
    .acquired i ∈ trace ↔ .acquired i ∈ gate i trace := by
  simp only [gate, List.mem_filter, Event.atGate, BEq.rfl, and_true]

theorem released_mem_iff (i : ℕ) (trace : List Event) :
    .released i ∈ trace ↔ .released i ∈ gate i trace := by
  simp only [gate, List.mem_filter, Event.atGate, BEq.rfl, and_true]

/-- A task with the permit has got it, and not given it back. -/
theorem gate_of_holds {E P : Type*} {t : Task E P} (i : ℕ) (h : t.holds = true) :
    t.gate i = [.acquired i] := by
  cases t with
  | accepting => rfl
  | serving σ => rfl
  | _ => cases h

/-- A task that has got the permit and does not have it has given it back. -/
theorem released_of_gate {E P : Type*} {t : Task E P} {i : ℕ} (h : t.holds = false)
    (hacquired : .acquired i ∈ t.gate i) : .released i ∈ t.gate i := by
  cases t with
  | accepting => cases h
  | serving σ => cases h
  | served => exact List.mem_cons_of_mem _ List.mem_cons_self
  | _ => simp only [Task.gate, List.not_mem_nil, List.mem_cons, reduceCtorEq, or_self] at hacquired

/-- An event of a longer history is an old one or a new one. -/
theorem append_eq_append_cons {α : Type*} {l₁ l₂ u w : List α} {x : α}
    (h : l₁ ++ l₂ = u ++ x :: w) :
    (∃ w', l₁ = u ++ x :: w') ∨ ∃ v, u = l₁ ++ v ∧ l₂ = v ++ x :: w := by
  rcases List.append_eq_append_iff.mp h with ⟨v, hu, hv⟩ | ⟨v, hl, hv⟩
  · exact Or.inr ⟨v, hu, hv⟩
  · cases v with
    | nil =>
        rw [List.append_nil] at hl
        exact Or.inr ⟨[], by rw [hl, List.append_nil], hv.symm⟩
    | cons y v =>
        rw [List.cons_append, List.cons.injEq] at hv
        exact Or.inl ⟨v, by rw [hl, hv.1]⟩

end Trace

section Gate

variable {E P : Type*} {envs : ℕ → Env} {cfg : HostCfg} {dropPercent : UInt32}
  {worlds : ℕ → ℕ → Backend E P} {δ δ' : State E P} {trace events : List Event}

/-- What the slot lets happen: a task gets the permit when all that had it before
    have given it back, finds it taken when another one has it, and drives a
    session while it has it. -/
structure Admits (trace : List Event) : Prop where
  acquired : ∀ u i w, trace = u ++ .acquired i :: w → ∀ j, .acquired j ∈ u → .released j ∈ u
  busy : ∀ u i w, trace = u ++ .busy i :: w → ∃ j ≠ i, .acquired j ∈ u ∧ .released j ∉ u
  session : ∀ u i e w, trace = u ++ .session i e :: w → .acquired i ∈ u ∧ .released i ∉ u

/-- The slot and what has been seen at it. -/
structure Gated (δ : State E P) (trace : List Event) : Prop where
  balanced : Balanced Task.holds 1 δ.slot δ.tasks
  gate : ∀ i, gate i trace = gated i δ.tasks[i]?
  admits : Admits trace

theorem gated_start : Gated ({} : State E P) [] := by
  have hnone (u w : List Event) (e : Event) : [] ≠ u ++ e :: w :=
    (List.append_ne_nil_of_right_ne_nil u (List.cons_ne_nil e w)).symm
  exact ⟨rfl, fun _ => rfl, ⟨fun u _ w h => absurd h (hnone u w _),
    fun u _ w h => absurd h (hnone u w _), fun u _ _ w h => absurd h (hnone u w _)⟩⟩

/-- A task with the permit has got it and not given it back. -/
theorem Gated.held (h : Gated δ trace) {i : ℕ} {t : Task E P} (hi : δ.tasks[i]? = some t)
    (ht : t.holds = true) : .acquired i ∈ trace ∧ .released i ∉ trace := by
  have hgate := h.gate i
  rw [hi, gated, gate_of_holds i ht] at hgate
  rw [acquired_mem_iff, released_mem_iff, hgate]
  exact ⟨List.mem_cons_self, by simp only [List.mem_cons, reduceCtorEq, List.not_mem_nil, or_self,
    not_false_eq_true]⟩

/-- While nobody has the permit, all that have got it have given it back. -/
theorem Gated.all_released (h : Gated δ trace) (hfree : ∀ t ∈ δ.tasks, t.holds = false) (j : ℕ)
    (hj : .acquired j ∈ trace) : .released j ∈ trace := by
  rw [acquired_mem_iff, h.gate j] at hj
  rw [released_mem_iff, h.gate j]
  cases htask : δ.tasks[j]? with
  | none => simp only [gated, htask, List.not_mem_nil] at hj
  | some t =>
      rw [htask] at hj
      exact released_of_gate (hfree t (List.mem_of_getElem? htask)) hj

/-- What a move changes at the slot. -/
theorem Moved.balanced {i slot slot' : ℕ} {s t : Task E P}
    (hm : Moved envs cfg dropPercent worlds i s slot t slot' events) {tasks : List (Task E P)}
    (hi : tasks[i]? = some s) (h : Balanced Task.holds 1 slot tasks) :
    Balanced Task.holds 1 slot' (tasks.set i t) := by
  cases hm with
  | handshake ok _ => exact h.same hi (by cases ok <;> rfl)
  | acquired _ left hslot =>
      rw [hslot] at h
      exact h.acquire hi rfl rfl
  | busy _ _ => exact h.same hi rfl
  | accepted _ => exact h.same hi rfl
  | lost _ => exact h.release hi rfl rfl
  | session a σ σ' events _ _ => exact h.same hi rfl
  | finished σ _ _ _ => exact h.release hi rfl rfl
  | rejected _ => exact h.same hi rfl

/-- What a move adds to what has been seen of its task. -/
theorem Moved.gate_self {i slot slot' : ℕ} {s t : Task E P}
    (hm : Moved envs cfg dropPercent worlds i s slot t slot' events) :
    s.gate i ++ gate i events = t.gate i := by
  cases hm with
  | handshake ok _ => cases ok <;> rfl
  | session a σ σ' events _ _ =>
      rw [gate_session, List.append_nil]
      rfl
  | _ =>
      simp only [Task.gate, gate, Event.atGate, BEq.rfl, List.filter_cons_of_pos, List.filter_nil,
        List.nil_append, List.append_nil, List.cons_append]

/-- A move is not seen of another connection. -/
theorem Moved.gate_other {i j slot slot' : ℕ} {s t : Task E P}
    (hm : Moved envs cfg dropPercent worlds i s slot t slot' events) (hij : i ≠ j) :
    gate j events = [] := by
  cases hm with
  | session a σ σ' events _ _ => exact gate_session j i events
  | _ =>
      simp only [gate, List.filter_nil, Event.atGate, beq_iff_eq, hij, not_false_eq_true,
        List.filter_cons_of_neg]

/-- What a move lets happen. -/
theorem Moved.admits {i slot : ℕ} {s t : Task E P}
    (hm : Moved envs cfg dropPercent worlds i s δ.slot t slot events)
    (hi : δ.tasks[i]? = some s) (h : Gated δ trace) : Admits (trace ++ events) := by
  have hsingle {x y : Event} {v w : List Event} (heq : [x] = v ++ y :: w) : v = [] ∧ y = x := by
    cases v with
    | nil => exact ⟨rfl, (List.cons.inj heq).1.symm⟩
    | cons z v =>
        simp only [List.cons_append, List.cons.injEq, List.nil_eq, List.append_eq_nil_iff,
          reduceCtorEq, and_false] at heq
  refine ⟨fun u j w heq => ?_, fun u j w heq => ?_, fun u j e w heq => ?_⟩
  · rcases append_eq_append_cons heq with ⟨w', hold⟩ | ⟨v, rfl, hnew⟩
    · exact h.admits.acquired u j w' hold
    cases hm with
    | acquired _ left hslot =>
        rcases hsingle hnew with ⟨rfl, -⟩
        rw [List.append_nil]
        -- A permit was left, so nobody had one.
        refine h.all_released (fun t ht => Bool.eq_false_iff.mpr (fun hholds => ?_))
        rcases List.getElem?_of_mem ht with ⟨k, hk⟩
        have hlt := h.balanced.lt hk hholds
        omega
    | session a σ σ' events _ _ =>
        have hmem : Event.acquired j ∈ events.map (.session i) := by
          rw [hnew]
          exact List.mem_append_right v List.mem_cons_self
        simp only [List.mem_map, reduceCtorEq, and_false, exists_false] at hmem
    | handshake ok _ =>
        simp only [List.nil_eq, List.append_eq_nil_iff, reduceCtorEq, and_false] at hnew
    | accepted _ => simp only [List.nil_eq, List.append_eq_nil_iff, reduceCtorEq, and_false] at hnew
    | _ => exact absurd (hsingle hnew).2 (by simp only [reduceCtorEq, not_false_eq_true])
  · rcases append_eq_append_cons heq with ⟨w', hold⟩ | ⟨v, rfl, hnew⟩
    · exact h.admits.busy u j w' hold
    cases hm with
    | busy _ hslot =>
        rcases hsingle hnew with ⟨rfl, hj⟩
        rw [List.append_nil]
        have hbalanced := h.balanced
        rw [hslot] at hbalanced
        rcases hbalanced.exists_holder Nat.one_pos with ⟨k, t, hk, ht⟩
        refine ⟨k, fun hkj => ?_, h.held hk ht⟩
        -- The task itself has no permit yet.
        rw [hkj, Event.busy.inj hj, hi] at hk
        rw [← Option.some.inj hk] at ht
        cases ht
    | session a σ σ' events _ _ =>
        have hmem : Event.busy j ∈ events.map (.session i) := by
          rw [hnew]
          exact List.mem_append_right v List.mem_cons_self
        simp only [List.mem_map, reduceCtorEq, and_false, exists_false] at hmem
    | handshake ok _ =>
        simp only [List.nil_eq, List.append_eq_nil_iff, reduceCtorEq, and_false] at hnew
    | accepted _ => simp only [List.nil_eq, List.append_eq_nil_iff, reduceCtorEq, and_false] at hnew
    | _ => exact absurd (hsingle hnew).2 (by simp only [reduceCtorEq, not_false_eq_true])
  · rcases append_eq_append_cons heq with ⟨w', hold⟩ | ⟨v, rfl, hnew⟩
    · exact h.admits.session u j e w' hold
    cases hm with
    | session a σ σ' events _ _ =>
        have hmem : Event.session j e ∈ events.map (.session i) := by
          rw [hnew]
          exact List.mem_append_right v List.mem_cons_self
        rcases List.mem_map.mp hmem with ⟨e', -, heq'⟩
        rw [← (Event.session.inj heq').1]
        rcases h.held hi rfl with ⟨hacquired, hreleased⟩
        refine ⟨List.mem_append_left v hacquired, fun hmem' => ?_⟩
        rcases List.mem_append.mp hmem' with hmem' | hmem'
        · exact hreleased hmem'
        · have hin : Event.released i ∈ events.map (.session i) := by
            rw [hnew]
            exact List.mem_append_left _ hmem'
          simp only [List.mem_map, reduceCtorEq, and_false, exists_false] at hin
    | handshake ok _ =>
        simp only [List.nil_eq, List.append_eq_nil_iff, reduceCtorEq, and_false] at hnew
    | accepted _ => simp only [List.nil_eq, List.append_eq_nil_iff, reduceCtorEq, and_false] at hnew
    | _ => exact absurd (hsingle hnew).2 (by simp only [reduceCtorEq, not_false_eq_true])

/-- What a step keeps. -/
theorem Stepped.gated (hs : Stepped envs cfg dropPercent worlds δ δ' events)
    (h : Gated δ trace) : Gated δ' (trace ++ events) := by
  cases hs with
  | incoming =>
      rw [List.append_nil]
      refine ⟨h.balanced.push rfl, fun i => ?_, h.admits⟩
      rw [h.gate i]
      -- The new task has not been at the slot.
      rcases lt_trichotomy i δ.tasks.length with hlt | heq | hgt
      · rw [List.getElem?_append_left hlt]
      · rw [heq, List.getElem?_concat_length, List.getElem?_eq_none le_rfl]
        rfl
      · rw [List.getElem?_eq_none hgt.le, List.getElem?_eq_none]
        rw [List.length_append]
        exact hgt
  | shut =>
      rw [List.append_nil]
      exact ⟨h.balanced, h.gate, h.admits⟩
  | moved i s t slot events hi hmoved =>
      refine ⟨hmoved.balanced hi h.balanced, fun j => ?_, hmoved.admits hi h⟩
      rw [gate_append, h.gate j]
      -- The task that moves is seen at the slot, the others are not.
      by_cases hij : i = j
      · rw [← hij]
        dsimp only
        rw [hi, System.getElem?_set_self hi]
        exact hmoved.gate_self
      · dsimp only
        rw [hmoved.gate_other hij, List.append_nil, List.getElem?_set_ne hij]

variable (envs cfg dropPercent worlds) in
/-- The slot in every run, from its beginning. -/
theorem gated_exec {actions : List (Action P)}
    (h : Machine.exec (step envs cfg dropPercent worlds) {} actions = some (δ, trace)) :
    Gated δ trace :=
  Machine.exec_invariant Gated gated_start
    (fun _ _ _ _ _ hinv hstep =>
      (step_stepped envs cfg dropPercent worlds hstep).gated hinv) h

/-- What has been seen of a connection at the slot: it gets the permit and gives it
    back, or finds it taken and is told so, as far as it has come. -/
theorem gated_prefix (i : ℕ) (t : Option (Task E P)) :
    gated i t <+: [.acquired i, .released i] ∨ ∃ d, gated i t <+: [.busy i, .rejected i d] := by
  cases t with
  | none => exact Or.inl List.nil_prefix
  | some t =>
      cases t with
      | accepting => exact Or.inl ⟨[.released i], rfl⟩
      | serving σ => exact Or.inl ⟨[.released i], rfl⟩
      | served => exact Or.inl ⟨[], rfl⟩
      | rejecting => exact Or.inr ⟨{}, [.rejected i {}], rfl⟩
      | rejected d => exact Or.inr ⟨d, [], rfl⟩
      | _ => exact Or.inl List.nil_prefix

variable (envs cfg dropPercent worlds) in
/-- One session at a time. In every run of the daemon, whatever the order of the
    steps: a connection gets the permit when all that had it before have given it
    back, is found busy only while another one has it, and is seen in a session
    only while it has it itself. Of each connection this is seen once. -/
theorem one_session_at_a_time {actions : List (Action P)}
    (h : Machine.exec (step envs cfg dropPercent worlds) {} actions = some (δ, trace)) :
    Admits trace ∧ ∀ i, gate i trace <+: [.acquired i, .released i] ∨
      ∃ d, gate i trace <+: [.busy i, .rejected i d] := by
  have hgated := gated_exec envs cfg dropPercent worlds h
  refine ⟨hgated.admits, fun i => ?_⟩
  rw [hgated.gate i]
  exact gated_prefix i δ.tasks[i]?

/-- A client comes in and gets the permit and its session. -/
def admittedActions : List (Action Unit) :=
  [.incoming, .handshake 0 true, .tryAcquire 0, .acceptBi 0] ++
    System.startActions.map (.session 0)

/-- A client comes in while another one has its session, and is turned away. -/
def surplusActions : List (Action Unit) :=
  admittedActions ++ [.incoming, .handshake 1 true, .tryAcquire 1, .reject 1]

def sampleRun (actions : List (Action Unit)) :
    Option (State (EncoderConfig × Bool) Unit × List Event) :=
  Machine.exec (step (fun _ => overLimitEnv) oneStream 0 fun _ _ => System.sampleEncoder) {} actions

theorem one_session_at_a_time_surplus : ∃ δ trace, sampleRun surplusActions = some (δ, trace) ∧
    .busy 1 ∈ trace ∧ Admits trace := by
  have hrun : ∃ δ trace, sampleRun surplusActions = some (δ, trace) ∧ .busy 1 ∈ trace :=
    ⟨_, _, rfl, List.mem_of_getElem? (i := 8) rfl⟩
  rcases hrun with ⟨δ, trace, hrun, hbusy⟩
  exact ⟨δ, trace, hrun, hbusy, (one_session_at_a_time _ oneStream 0 _ hrun).1⟩

end Gate

end Daemon

end LoomHost
