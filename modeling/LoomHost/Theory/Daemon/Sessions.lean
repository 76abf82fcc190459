import LoomHost.Theory.Daemon.Gate
import LoomHost.Theory.Replies
import LoomHost.Theory.System.Closing

/-!
# The Sessions of a Daemon

The sessions of a daemon come one after the other, and what there is of one
connection is a run of that connection alone: what holds of one connection by
itself holds of every one. A surplus client has no session, and is told so.

## Main definitions

* `Serving`: The sessions so far.

## Theorems

* `serving_exec`: The sessions so far, in every run.
* `sessions_serial`: The sessions of every run.
* `rejected_told`: What a surplus client gets.
-/

namespace LoomHost

namespace Daemon

open Cbor Control Session Conn Media Exclusive

section Sessions

variable {E P : Type*} (envs : ℕ → Env) (cfg : HostCfg) (dropPercent : UInt32)
  (worlds : ℕ → ℕ → Backend E P)

/-- Whether a task has come to its session. -/
def Task.begun : Task E P → Bool
  | .serving _ | .served => true
  | _ => false

/-- The sessions so far, one after the other. The last one may be going on. -/
structure Serving (blocks : List (Block ℕ (System.State E P) (System.Action P) System.Event))
    (δ : State E P) (trace : List Event) : Prop where
  gated : Gated δ trace
  serial : Serial (fun i => System.step (envs i) cfg dropPercent (worlds i)) (first envs cfg)
    blocks (sessions trace)
  begun : ∀ i ∈ blocks.map Block.task, ∃ t, δ.tasks[i]? = some t ∧ t.begun = true
  current : ∀ i σ, δ.tasks[i]? = some (.serving σ) →
    ∃ before b, blocks = before ++ [b] ∧ b.task = i ∧ b.state = σ

variable {envs cfg dropPercent worlds} {δ δ' : State E P} {trace events : List Event}
  {blocks : List (Block ℕ (System.State E P) (System.Action P) System.Event)}

/-- Tasks that have begun stay so when one of them moves. -/
theorem Serving.begun_set (h : Serving envs cfg dropPercent worlds blocks δ trace) {i : ℕ}
    {s t : Task E P} (hi : δ.tasks[i]? = some s) (hst : s.begun = true → t.begun = true) (j : ℕ)
    (hj : j ∈ blocks.map Block.task) :
    ∃ t', (δ.tasks.set i t)[j]? = some t' ∧ t'.begun = true := by
  rcases h.begun j hj with ⟨t', ht', hbegun⟩
  by_cases hij : i = j
  · rw [← hij] at ht' ⊢
    rw [hi, Option.some.injEq] at ht'
    exact ⟨t, System.getElem?_set_self hi, hst (ht' ▸ hbegun)⟩
  · rw [List.getElem?_set_ne hij]
    exact ⟨t', ht', hbegun⟩

/-- A move that is not seen in a session, and begins none. -/
theorem Serving.kept (h : Serving envs cfg dropPercent worlds blocks δ trace) {i slot : ℕ}
    {s t : Task E P} (hgated : Gated { δ with slot, tasks := δ.tasks.set i t } (trace ++ events))
    (hi : δ.tasks[i]? = some s) (hquiet : sessions events = [])
    (hst : s.begun = true → t.begun = true) (ht : ∀ σ, t ≠ .serving σ) :
    Serving envs cfg dropPercent worlds blocks { δ with slot, tasks := δ.tasks.set i t }
      (trace ++ events) := by
  refine ⟨hgated, ?_, h.begun_set hi hst, fun j σ hj => ?_⟩
  · rw [sessions_append, hquiet, List.append_nil]
    exact h.serial
  · dsimp only at hj
    by_cases hij : i = j
    · rw [← hij, System.getElem?_set_self hi, Option.some.injEq] at hj
      exact absurd hj (ht σ)
    · rw [List.getElem?_set_ne hij] at hj
      exact h.current j σ hj

/-- While a task has the permit, no other one is in its session. -/
theorem Serving.only (h : Serving envs cfg dropPercent worlds blocks δ trace) {i j : ℕ}
    {s t : Task E P} {σ : System.State E P} (hi : δ.tasks[i]? = some s) (hs : s.holds = true)
    (hj : (δ.tasks.set i t)[j]? = some (.serving σ)) : i = j := by
  by_contra hij
  rw [List.getElem?_set_ne hij] at hj
  exact hij (h.gated.balanced.unique hi hs hj rfl)

/-- A session begins. -/
theorem Serving.accepted (h : Serving envs cfg dropPercent worlds blocks δ trace) {i : ℕ}
    (hi : δ.tasks[i]? = some .accepting)
    (hgated : Gated { δ with tasks := δ.tasks.set i (.serving (first envs cfg i)) } trace) :
    Serving envs cfg dropPercent worlds
      (blocks ++ [{ task := i, actions := [], state := first envs cfg i, trace := [] }])
      { δ with tasks := δ.tasks.set i (.serving (first envs cfg i)) } trace := by
  have hnew : i ∉ blocks.map Block.task := by
    intro hmem
    rcases h.begun i hmem with ⟨t, ht, hbegun⟩
    rw [hi, Option.some.injEq] at ht
    rw [← ht] at hbegun
    cases hbegun
  refine ⟨hgated, h.serial.begins hnew, fun j hj => ?_, fun j σ hj => ?_⟩
  · rw [List.map_append, List.mem_append] at hj
    rcases hj with hj | hj
    · exact h.begun_set hi (fun _ => rfl) j hj
    · rw [List.mem_singleton.mp hj]
      exact ⟨_, System.getElem?_set_self hi, rfl⟩
  · have hij := h.only hi rfl hj
    dsimp only at hj
    rw [← hij, System.getElem?_set_self hi, Option.some.injEq, Task.serving.injEq] at hj
    exact ⟨blocks, _, rfl, hij, hj⟩

/-- A session goes on. -/
theorem Serving.session (h : Serving envs cfg dropPercent worlds blocks δ trace) {i : ℕ}
    {σ σ' : System.State E P} {a : System.Action P} {events : List System.Event}
    (hi : δ.tasks[i]? = some (.serving σ))
    (hstep : System.step (envs i) cfg dropPercent (worlds i) σ a = some (σ', events))
    (hgated : Gated { δ with tasks := δ.tasks.set i (.serving σ') }
      (trace ++ events.map (.session i))) :
    ∃ blocks', Serving envs cfg dropPercent worlds blocks'
      { δ with tasks := δ.tasks.set i (.serving σ') } (trace ++ events.map (.session i)) := by
  rcases h.current i σ hi with ⟨before, b, hblocks, hb, hstate⟩
  have hserial := h.serial
  rw [hblocks] at hserial
  rw [← hb, ← hstate] at hstep
  -- The step belongs to the last block, that of the session at the slot.
  refine ⟨before ++ [{ b with
    actions := b.actions ++ [a], state := σ', trace := b.trace ++ events }],
    hgated, ?_, fun j hj => ?_, fun j τ hj => ?_⟩
  · rw [sessions_append, sessions_session, ← hb]
    exact hserial.steps hstep
  · refine h.begun_set hi (fun _ => rfl) j ?_
    rw [hblocks, List.map_append]
    rw [List.map_append] at hj
    exact hj
  · -- No other task has a session, as there is one permit.
    have hij := h.only hi rfl hj
    dsimp only at hj
    rw [← hij, System.getElem?_set_self hi, Option.some.injEq, Task.serving.injEq] at hj
    exact ⟨before, _, rfl, hb.trans hij, hj⟩

/-- What a step keeps. -/
theorem Stepped.serving (hs : Stepped envs cfg dropPercent worlds δ δ' events)
    (h : Serving envs cfg dropPercent worlds blocks δ trace) :
    ∃ blocks', Serving envs cfg dropPercent worlds blocks' δ' (trace ++ events) := by
  have hgated := hs.gated h.gated
  cases hs with
  | incoming =>
      refine ⟨blocks, hgated, ?_, fun i hi => ?_, fun i σ hi => ?_⟩
      · rw [List.append_nil]
        exact h.serial
      · rcases h.begun i hi with ⟨t, ht, hbegun⟩
        have hlt := (List.getElem?_eq_some_iff.mp ht).1
        exact ⟨t, (List.getElem?_append_left hlt).trans ht, hbegun⟩
      · -- The new task is not in its session.
        dsimp only at hi
        rw [List.getElem?_append] at hi
        split at hi
        · exact h.current i σ hi
        · rw [List.getElem?_singleton] at hi
          split at hi <;> cases hi
  | shut =>
      rw [List.append_nil] at hgated ⊢
      exact ⟨blocks, hgated, h.serial, h.begun, h.current⟩
  | moved i s t slot events hi hmoved =>
      cases hmoved with
      | accepted _ =>
          rw [List.append_nil] at hgated ⊢
          exact ⟨_, h.accepted hi hgated⟩
      | session a σ σ' events _ hstep => exact h.session hi hstep hgated
      | handshake ok _ =>
          refine ⟨blocks, h.kept hgated hi rfl (fun h => nomatch h) ?_⟩
          cases ok <;> exact fun _ h => nomatch h
      | finished σ _ _ _ => exact ⟨blocks, h.kept hgated hi rfl (fun _ => rfl) fun _ h => nomatch h⟩
      | _ => exact ⟨blocks, h.kept hgated hi rfl (fun h => nomatch h) fun _ h => nomatch h⟩

variable (envs cfg dropPercent worlds) in
/-- The sessions of every run. -/
theorem serving_exec {actions : List (Action P)}
    (h : Machine.exec (step envs cfg dropPercent worlds) {} actions = some (δ, trace)) :
    ∃ blocks, Serving envs cfg dropPercent worlds blocks δ trace := by
  refine Machine.exec_invariant
    (fun δ trace => ∃ blocks, Serving envs cfg dropPercent worlds blocks δ trace)
    ⟨[], gated_start, Serial.nil, fun i hi => absurd hi List.not_mem_nil, fun i σ hi => ?_⟩
    (fun δ trace a δ' events hinv hstep => ?_) h
  · exact absurd hi (by simp only [List.length_nil, not_lt_zero, not_false_eq_true, getElem?_neg,
      reduceCtorEq])
  · rcases hinv with ⟨blocks, hserving⟩
    exact (step_stepped envs cfg dropPercent worlds hstep).serving hserving

variable (envs cfg dropPercent worlds) in
/-- The sessions of a daemon are serial. In every run, whatever the order of the
    steps: what there is of one connection is a run of that connection alone, and
    once another connection has been seen in its session, the first is seen no
    more. -/
theorem sessions_serial {actions : List (Action P)}
    (h : Machine.exec (step envs cfg dropPercent worlds) {} actions = some (δ, trace)) :
    (∀ i, ∃ alone σ, Machine.exec (System.step (envs i) cfg dropPercent (worlds i))
      (System.start cfg (envs i).sessionId) alone = some (σ, part i (sessions trace))) ∧
    ∀ u y w, sessions trace = u ++ y :: w → ∀ x ∈ u, x.1 ≠ y.1 → ∀ z ∈ w, z.1 ≠ x.1 := by
  rcases serving_exec envs cfg dropPercent worlds h with ⟨blocks, hserving⟩
  exact ⟨hserving.serial.alone, fun u y w heq => hserving.serial.contiguous heq⟩

/-- One client leaves, and the next one has its session. -/
def twoSessions : List (Action Unit) :=
  admittedActions ++ [.session 0 (.receive (.Message BYE [])), .session 0 .apply,
      .session 0 (.turn 0 (System.idleTick true)), .finish 0] ++
    [.incoming, .handshake 1 true, .tryAcquire 1, .acceptBi 1] ++
      System.startActions.map (.session 1)

theorem sessions_serial_two : ∃ δ trace, sampleRun twoSessions = some (δ, trace) ∧
    (sessions trace).map Prod.fst = List.replicate 9 0 ++ List.replicate 7 1 ∧
    ∃ alone σ, Machine.exec (System.step overLimitEnv oneStream 0 fun _ => System.sampleEncoder)
      (System.start oneStream (Vector.replicate 16 0)) alone =
        some (σ, part 1 (sessions trace)) := by
  have hrun : ∃ δ trace, sampleRun twoSessions = some (δ, trace) ∧
      (sessions trace).map Prod.fst = List.replicate 9 0 ++ List.replicate 7 1 :=
    ⟨_, _, rfl, rfl⟩
  rcases hrun with ⟨δ, trace, hrun, htasks⟩
  exact ⟨δ, trace, hrun, htasks, (sessions_serial _ oneStream 0 _ hrun).1 1⟩

end Sessions

section Rejected

variable {E P : Type*} {envs : ℕ → Env} {cfg : HostCfg} {dropPercent : UInt32}
  {worlds : ℕ → ℕ → Backend E P} {δ : State E P} {trace : List Event} {i : ℕ} {d : Driver}

/-- A surplus client is told what `rejectBusy` writes. -/
theorem rejected_eq {actions : List (Action P)}
    (h : Machine.exec (step envs cfg dropPercent worlds) {} actions = some (δ, trace)) :
    .rejected i d ∈ trace → d = rejectBusy (envs i) := by
  refine Machine.exec_invariant
    (fun _ trace => Event.rejected i d ∈ trace → d = rejectBusy (envs i))
    (fun hmem => absurd hmem List.not_mem_nil) (fun δ trace a δ' events hinv hstep hmem => ?_) h
  rcases List.mem_append.mp hmem with hold | hnew
  · exact hinv hold
  · cases step_stepped envs cfg dropPercent worlds hstep with
    | incoming => exact absurd hnew List.not_mem_nil
    | shut => exact absurd hnew List.not_mem_nil
    | moved j s t slot events hi hmoved =>
        cases hmoved with
        | rejected _ =>
            rw [List.mem_singleton, Event.rejected.injEq] at hnew
            rw [hnew.2, hnew.1]
        | session a σ σ' events _ _ =>
            simp only [List.mem_map, reduceCtorEq, and_false, exists_false] at hnew
        | _ => simp only [List.not_mem_nil, List.mem_cons, reduceCtorEq, or_self] at hnew

/-- What `rejectBusy` leaves behind: the connection closed, no media, and at most
    one frame, the ERROR. -/
theorem rejectBusy_spec (env : Env) :
    (rejectBusy env).closed = some (.LocallyClosed Errors.BUSY.toUInt32 "busy") ∧
      (rejectBusy env).media = [] ∧
      (∀ bytes ∈ (rejectBusy env).sent,
        bytes = encodeFrame ERROR (errorBody Errors.BUSY)) ∧
      (rejectBusy env).sent.length ≤ 1 ∧
      (env.acceptBi.isSome = true → env.writes 0 = .ok () →
        (rejectBusy env).sent.length = 1) := by
  unfold rejectBusy
  -- Without a control stream, or if it cannot be written, nothing is sent, and the connection is
  -- closed all the same.
  cases env.acceptBi with
  | none => exact ⟨rfl, rfl, fun _ h => absurd h List.not_mem_nil, Nat.zero_le 1, nofun⟩
  | some recv =>
      cases hwrite : env.writes 0 with
      | error e =>
          rw [sendFrame_error env {} _ _ e hwrite]
          exact ⟨rfl, rfl, fun _ h => absurd h List.not_mem_nil, Nat.zero_le 1,
            fun _ h => by cases h⟩
      | ok _ =>
          rw [sendFrame_ok env {} _ _ hwrite]
          exact ⟨rfl, rfl, fun _ h => List.mem_singleton.mp h, le_refl 1, fun _ _ => rfl⟩

end Rejected

end Daemon

end LoomHost
