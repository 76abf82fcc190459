import LoomHost.Theory.Daemon.Sessions
import LoomHost.Theory.System.Lifetime

/-!
# The Permit Comes Back

The permit comes back when the session is over and its media threads have ended.
The threads of a closed connection end by themselves. Those of a connection that
the session loop has left open do not, and then every other client finds the host
busy.

## Main definitions

* `Serves`: What a step does to a task that is in its session.
* `LeftOpen`: The connection is left open, and a media thread goes on.
* `Unfailing`: The turns of a thread meet no failure.

## Theorems

* `served_exec`, `closing_exec`: A task that waits for its media threads.
* `permit_returns`: A closed connection gives the permit back.
* `leftOpen_exec`: A thread that goes on keeps the task waiting.
* `busy_until_closed`: A connection that is left open keeps the permit.
-/

namespace LoomHost

namespace Daemon

open Cbor Control Session Conn Media Exclusive

section Returns

variable {E P : Type*} (envs : ℕ → Env) (cfg : HostCfg) (dropPercent : UInt32)
  (worlds : ℕ → ℕ → Backend E P)

/-- A step that brings a task nearer to the end of its session: one of its media
    threads, or the end itself. -/
def Action.ends (i : ℕ) : Action P → Bool
  | .session j a => j == i && a.thread.isSome
  | .finish j => j == i
  | _ => false

/-- What a step does to a task that is in its session. -/
inductive Serves (i : ℕ) (σ : System.State E P) : Action P → Task E P → List Event → Prop
  | session (a : System.Action P) (σ' : System.State E P) (events : List System.Event)
      (hstep : System.step (envs i) cfg dropPercent (worlds i) σ a = some (σ', events)) :
      Serves i σ (.session i a) (.serving σ') (events.map (.session i))
  | finished (hreturned : σ.returned = true) (hjoined : σ.joined = true) :
      Serves i σ (.finish i) .served [.released i]
  /-- Somebody else takes a step. -/
  | other (a : Action P) (events : List Event) (hother : a.ends i = false)
      (hreleased : .released i ∉ events) : Serves i σ a (.serving σ) events

variable {envs cfg dropPercent worlds} {δ δ' : State E P} {u v events : List Event} {i : ℕ}
  {σ : System.State E P} {a : Action P}

/-- The step of a task that is somewhere else leaves a task alone. -/
theorem set_other {j : ℕ} {r s t : Task E P} (hi : δ.tasks[i]? = some r)
    (hj : δ.tasks[j]? = some s) (hs : s ≠ r) :
    j ≠ i ∧ (δ.tasks.set j t)[i]? = some r := by
  have hne : j ≠ i := by
    rintro rfl
    rw [hi, Option.some.injEq] at hj
    exact hs hj.symm
  exact ⟨hne, (List.getElem?_set_ne hne).trans hi⟩

/-- What a step does to a task that is in its session. -/
theorem step_serves (h : step envs cfg dropPercent worlds δ a = some (δ', events))
    (hi : δ.tasks[i]? = some (.serving σ)) :
    ∃ t, δ'.tasks[i]? = some t ∧ Serves envs cfg dropPercent worlds i σ a t events := by
  cases a with
  | incoming =>
      simp only [step, Option.ite_none_right_eq_some] at h
      cases h.2
      have hlt := (List.getElem?_eq_some_iff.mp hi).1
      exact ⟨_, (List.getElem?_append_left hlt).trans hi, Serves.other _ _ rfl List.not_mem_nil⟩
  | shut =>
      simp only [step, Option.ite_none_right_eq_some] at h
      cases h.2
      exact ⟨_, hi, Serves.other _ _ rfl List.not_mem_nil⟩
  | handshake j ok =>
      simp only [step] at h
      split at h
      · rename_i hj
        cases h
        exact ⟨_, (set_other hi hj fun h => by cases h).2,
          Serves.other _ _ rfl List.not_mem_nil⟩
      · cases h
  | tryAcquire j =>
      simp only [step, tryAcquire] at h
      split at h
      · rename_i hj
        split at h
        · cases h
          exact ⟨_, (set_other hi hj fun h => by cases h).2, Serves.other _ _ rfl
            (fun he => absurd (List.mem_singleton.mp he) Event.noConfusion)⟩
        · cases h
          exact ⟨_, (set_other hi hj fun h => by cases h).2, Serves.other _ _ rfl
            (fun he => absurd (List.mem_singleton.mp he) Event.noConfusion)⟩
      · cases h
  | acceptBi j =>
      simp only [step, release] at h
      split at h
      · rename_i hj
        split at h
        · cases h
          exact ⟨_, (set_other hi hj fun h => by cases h).2,
            Serves.other _ _ rfl List.not_mem_nil⟩
        · cases h
          -- The permit that comes back is another task's.
          rcases set_other (t := .served) hi hj (fun h => by cases h) with ⟨hne, htask⟩
          refine ⟨_, htask, Serves.other _ _ rfl ?_⟩
          simpa only [List.mem_singleton, Event.released.injEq] using Ne.symm hne
      · cases h
  | session j a =>
      simp only [step] at h
      split at h
      · rename_i τ hj
        split at h
        · rename_i σ' events hstep
          cases h
          by_cases hij : j = i
          · rw [hij] at hj hstep ⊢
            rw [hi, Option.some.injEq, Task.serving.injEq] at hj
            rw [← hj] at hstep
            exact ⟨_, System.getElem?_set_self hi, Serves.session a σ' events hstep⟩
          · -- Another session's step; its events carry that session's number.
            refine ⟨_, (List.getElem?_set_ne hij).trans hi, Serves.other _ _ ?_ ?_⟩
            · simp only [Action.ends, Bool.and_eq_false_imp, beq_iff_eq, hij, IsEmpty.forall_iff]
            · simp only [List.mem_map, reduceCtorEq, and_false, exists_false, not_false_eq_true]
        · cases h
      · cases h
  | finish j =>
      simp only [step, release] at h
      split at h
      · rename_i τ hj
        rw [Option.ite_none_right_eq_some, Bool.and_eq_true] at h
        rcases h with ⟨⟨hreturned, hjoined⟩, h⟩
        cases h
        by_cases hij : j = i
        · rw [hij] at hj ⊢
          rw [hi, Option.some.injEq, Task.serving.injEq] at hj
          rw [← hj] at hreturned hjoined
          exact ⟨_, System.getElem?_set_self hi, Serves.finished hreturned hjoined⟩
        · refine ⟨_, (List.getElem?_set_ne hij).trans hi, Serves.other _ _ ?_ ?_⟩
          · simp only [Action.ends, beq_eq_false_iff_ne, ne_eq, hij, not_false_eq_true]
          · simpa only [List.mem_singleton, Event.released.injEq] using Ne.symm hij
      · cases h
  | reject j =>
      simp only [step] at h
      split at h
      · rename_i hj
        cases h
        exact ⟨_, (set_other hi hj fun h => by cases h).2, Serves.other _ _ rfl
          (fun he => absurd (List.mem_singleton.mp he) Event.noConfusion)⟩
      · cases h

/-- The session of a task is a run of its connection alone. -/
theorem alone_of_serving {actions : List (Action P)}
    (h : Machine.exec (step envs cfg dropPercent worlds) {} actions = some (δ, u))
    (hi : δ.tasks[i]? = some (.serving σ)) :
    ∃ alone trace, Machine.exec (System.step (envs i) cfg dropPercent (worlds i))
      (System.start cfg (envs i).sessionId) alone = some (σ, trace) := by
  rcases serving_exec envs cfg dropPercent worlds h with ⟨blocks, hserving⟩
  rcases hserving.current i σ hi with ⟨before, b, hblocks, rfl, rfl⟩
  have hmem : b ∈ before ++ [b] := List.mem_concat_self
  exact ⟨b.actions, b.trace, hserving.serial.ran b (hblocks ▸ hmem)⟩

/-- A task that has dropped its permit has come to its end. -/
theorem served_step (h : step envs cfg dropPercent worlds δ a = some (δ', events))
    (hi : δ.tasks[i]? = some .served) : δ'.tasks[i]? = some .served ∧ a.ends i = false := by
  -- A task that moves is another one, as this one has no step.
  have hends : a.ends i = false := by
    cases a with
    | session j a =>
        simp only [step] at h
        split at h
        · rename_i τ hj
          rw [Action.ends, beq_false_of_ne (set_other (t := .served) hi hj fun h => by cases h).1,
            Bool.false_and]
        · cases h
    | finish j =>
        simp only [step] at h
        split at h
        · rename_i τ hj
          exact beq_false_of_ne (set_other (t := .served) hi hj fun h => by cases h).1
        · cases h
    | _ => rfl
  refine ⟨?_, hends⟩
  cases step_stepped envs cfg dropPercent worlds h with
  | incoming =>
      have hlt := (List.getElem?_eq_some_iff.mp hi).1
      exact (List.getElem?_append_left hlt).trans hi
  | shut => exact hi
  | moved j s t slot events hj hmoved =>
      refine (set_other hi hj ?_).2
      cases hmoved <;> simp only [ne_eq, reduceCtorEq, not_false_eq_true]

/-- A task that has dropped its permit takes no step any more. -/
theorem served_exec (actions : List (Action P)) : ∀ {δ δ' : State E P} {v : List Event},
    Machine.exec (step envs cfg dropPercent worlds) δ actions = some (δ', v) →
    δ.tasks[i]? = some .served →
    δ'.tasks[i]? = some .served ∧ actions.countP (Action.ends i) = 0 := by
  induction actions with
  | nil =>
      intro δ δ' v h hi
      cases h
      exact ⟨hi, rfl⟩
  | cons a actions ih =>
      intro δ δ' v h hi
      rcases Machine.exec_cons.mp h with ⟨δ₁, events, rest, hstep, hrest, -⟩
      rcases served_step hstep hi with ⟨hi₁, hends⟩
      rcases ih hrest hi₁ with ⟨hi', hcount⟩
      exact ⟨hi', by rw [List.countP_cons_of_neg (ne_true_of_eq_false hends)]; exact hcount⟩

/-- A task whose session loop has returned on a closed connection comes nearer to
    its end with each of its steps. -/
theorem closing_exec (actions : List (Action P)) :
    ∀ {δ δ' : State E P} {v : List Event} {σ : System.State E P},
    Machine.exec (step envs cfg dropPercent worlds) δ actions = some (δ', v) →
    δ.tasks[i]? = some (.serving σ) → σ.returned = true → σ.closed = true →
    (∃ σ', δ'.tasks[i]? = some (.serving σ') ∧ σ'.returned = true ∧
      actions.countP (Action.ends i) + System.ahead σ' ≤ System.ahead σ) ∨
    .released i ∈ v ∧ actions.countP (Action.ends i) ≤ System.ahead σ + 1 := by
  induction actions with
  | nil =>
      intro δ δ' v σ h hi hreturned _
      cases h
      exact Or.inl ⟨σ, hi, hreturned, (Nat.zero_add _).le⟩
  | cons a actions ih =>
      intro δ δ' v σ h hi hreturned hclosed
      rcases Machine.exec_cons.mp h with ⟨δ₁, events, rest, hstep, hrest, rfl⟩
      rcases step_serves hstep hi with ⟨t, ht, hserves⟩
      cases hserves with
      | session a σ₁ events hsession =>
          rcases System.ahead_of_step hsession hreturned hclosed with ⟨hreturned₁, -, -, hless⟩
          have hclosed₁ := (System.step_stepped _ _ _ _ hsession).closed hclosed
          -- A step counts if it is one of the media threads.
          have hone : (if Action.ends i (.session i a) = true then 1 else 0) =
              a.thread.toList.length := by
            rw [Action.ends, beq_self_eq_true, Bool.true_and]
            cases a.thread <;> rfl
          rw [List.countP_cons, hone]
          rcases ih hrest ht hreturned₁ hclosed₁ with ⟨σ', hi', hreturned', hmore⟩ | ⟨hv, hmore⟩
          · exact Or.inl ⟨σ', hi', hreturned', by omega⟩
          · exact Or.inr ⟨List.mem_append_right _ hv, by omega⟩
      | finished _ _ =>
          -- After the permit is dropped no step of the task follows.
          rcases served_exec actions hrest ht with ⟨-, hcount⟩
          refine Or.inr ⟨List.mem_append_left _ List.mem_cons_self, ?_⟩
          rw [List.countP_cons, hcount]
          split <;> omega
      | other _ _ hother _ =>
          -- Another task's step does not count.
          rw [List.countP_cons_of_neg (ne_true_of_eq_false hother)]
          rcases ih hrest ht hreturned hclosed with hleft | ⟨hv, hmore⟩
          · exact Or.inl hleft
          · exact Or.inr ⟨List.mem_append_right _ hv, hmore⟩

end Returns

section Busy

variable {E P : Type*} {envs : ℕ → Env} {cfg : HostCfg} {dropPercent : UInt32}
  {worlds : ℕ → ℕ → Backend E P} {δ δ' : State E P} {u v : List Event} {i k : ℕ}
  {σ : System.State E P}

/-- The session loop has returned and left the connection open, and a media thread
    goes on. -/
def LeftOpen (k : ℕ) (σ : System.State E P) : Prop :=
  σ.returned = true ∧ σ.closed = false ∧
    ∃ p m, σ.pipelines[k]? = some p ∧ p.phase = .running m

/-- A connection that is left open stays so, as long as it is not lost and the turn,
    if it is one of the thread, meets no failure. -/
theorem LeftOpen.step {env : Env} {world : ℕ → Backend E P} {σ' : System.State E P}
    {a : System.Action P} {events : List System.Event} (h : LeftOpen k σ)
    (hsurvives : ∀ t p m, a = .turn k t → σ.pipelines[k]? = some p → p.phase = .running m →
      System.Survives (world σ.steps) m t) (ha : a ≠ .lose)
    (hstep : System.step env cfg dropPercent world σ a = some (σ', events)) : LeftOpen k σ' := by
  rcases h with ⟨hreturned, hopen, p, m, hp, hphase⟩
  have hreading : σ.reading = false := by
    simp only [System.State.reading, hreturned, Bool.not_true, Bool.false_and]
  cases a with
  | receive frame =>
      simp only [System.step, hreading, Bool.false_eq_true, ↓reduceIte, reduceCtorEq] at hstep
  | badFrame =>
      simp only [System.step, hreading, Bool.false_eq_true, ↓reduceIte, reduceCtorEq] at hstep
  | eof => simp only [System.step, hreading, Bool.false_eq_true, ↓reduceIte, reduceCtorEq] at hstep
  | readError =>
      simp only [System.step, hreading, Bool.false_eq_true, ↓reduceIte, reduceCtorEq] at hstep
  | apply =>
      simp only [System.step, hreturned] at hstep
      split at hstep <;> cases hstep
  | lose => exact absurd rfl ha
  | openMedia j =>
      simp only [System.step] at hstep
      split at hstep
      · rename_i q handle hq _
        split at hstep
        · rename_i hspawned
          cases hstep
          refine ⟨hreturned, hopen, p, m, ?_, hphase⟩
          -- The thread that opens its media is another one.
          have hne : j ≠ k := by
            rintro rfl
            rw [hp, Option.some.injEq] at hq
            rw [← hq, hphase] at hspawned
            cases hspawned
          exact (List.getElem?_set_ne hne).trans hp
        · cases hstep
      · cases hstep
  | turn j t =>
      cases System.step_stepped _ _ _ _ hstep with
      | ended _ driver returned lost hcontrol _ _ _ => exact absurd rfl (hcontrol j t)
      | turned _ q handle m' _ hq _ hphase' htick _ =>
          by_cases hjk : j = k
          · have hgoes := (System.goes_on_iff handle.streamId (htick.trans hopen)).mpr
              (hsurvives t q m' (by rw [hjk]) (by rw [← hjk]; exact hq) hphase')
            rcases System.turn_phase_cases (world σ.steps) j q handle m' t with
              ⟨m₁, -, hrunning⟩ | ⟨hstops, -⟩
            · refine ⟨hreturned, hopen, _, m₁, ?_, hrunning⟩
              rw [← hjk]
              exact System.getElem?_set_self hq
            · exact absurd hstops hgoes
          · exact ⟨hreturned, hopen, p, m, (List.getElem?_set_ne hjk).trans hp, hphase⟩

variable (envs cfg dropPercent worlds) in
/-- Every turn of a media thread in a run meets no failure. -/
def Unfailing (i k : ℕ) (δ : State E P) (actions : List (Action P)) : Prop :=
  ∀ before t after δ₁ u σ p m, actions = before ++ .session i (.turn k t) :: after →
    Machine.exec (step envs cfg dropPercent worlds) δ before = some (δ₁, u) →
    δ₁.tasks[i]? = some (.serving σ) → σ.pipelines[k]? = some p → p.phase = .running m →
    System.Survives (worlds i σ.steps) m t

/-- The rest of a run without a failure. -/
theorem Unfailing.rest {a : Action P} {actions : List (Action P)} {events : List Event}
    (h : Unfailing envs cfg dropPercent worlds i k δ (a :: actions))
    (hstep : step envs cfg dropPercent worlds δ a = some (δ', events)) :
    Unfailing envs cfg dropPercent worlds i k δ' actions := by
  intro before t after δ₁ u σ p m hactions hbefore
  refine h (a :: before) t after δ₁ (events ++ u) σ p m ?_ ?_
  · rw [hactions, List.cons_append]
  · exact Machine.exec_cons.mpr ⟨δ', events, u, hstep, hbefore, rfl⟩

/-- A connection that is left open keeps the permit. -/
theorem leftOpen_exec (actions : List (Action P)) :
    ∀ {δ δ' : State E P} {v : List Event} {σ : System.State E P},
    Machine.exec (step envs cfg dropPercent worlds) δ actions = some (δ', v) →
    Unfailing envs cfg dropPercent worlds i k δ actions →
    (.session i .lose) ∉ actions → δ.tasks[i]? = some (.serving σ) → LeftOpen k σ →
    ∃ σ', δ'.tasks[i]? = some (.serving σ') ∧ LeftOpen k σ' := by
  induction actions with
  | nil =>
      intro δ δ' v σ h _ _ hi hleft
      cases h
      exact ⟨σ, hi, hleft⟩
  | cons a actions ih =>
      intro δ δ' v σ h hsurvives hlose hi hleft
      rcases Machine.exec_cons.mp h with ⟨δ₁, events, rest, hstep, hrest, -⟩
      have hlater := hsurvives.rest hstep
      rw [List.mem_cons, not_or] at hlose
      rcases step_serves hstep hi with ⟨t, ht, hserves⟩
      cases hserves with
      | session a σ₁ events hsession =>
          refine ih hrest hlater hlose.2 ht
            (hleft.step (fun t p m hturn hp hphase => ?_) (fun ha => ?_) hsession)
          · exact hsurvives [] t actions δ [] σ p m (by rw [hturn, List.nil_append]) rfl hi hp
              hphase
          · exact hlose.1 (by rw [ha])
      | finished _ hjoined =>
          -- A thread that goes on is not joined.
          rcases hleft with ⟨-, -, p, m, hp, hphase⟩
          have hended := List.all_eq_true.mp hjoined p (List.mem_of_getElem? hp)
          simp only [System.Phase.ended, hphase, Bool.false_eq_true] at hended
      | other _ _ _ _ => exact ih hrest hlater hlose.2 ht hleft

/-- A connection that is left open keeps every other client out. When the session
    loop has returned without closing the connection and a media thread goes on,
    then in every run from there in which the connection is not lost and the turns
    of that thread meet no failure: the permit is not given back, no other connection
    gets it, and whoever asks for it finds the host busy. -/
theorem busy_until_closed {before after : List (Action P)}
    (hbefore : Machine.exec (step envs cfg dropPercent worlds) {} before = some (δ, u))
    (hi : δ.tasks[i]? = some (.serving σ)) (hleft : LeftOpen k σ)
    (hafter : Machine.exec (step envs cfg dropPercent worlds) δ after = some (δ', v))
    (hsurvives : Unfailing envs cfg dropPercent worlds i k δ after)
    (hlose : (.session i .lose) ∉ after) :
    .released i ∉ v ∧ (∀ j, .acquired j ∉ v) ∧
      ∀ j, δ'.tasks[j]? = some .connected →
        ∃ δ'', step envs cfg dropPercent worlds δ' (.tryAcquire j) = some (δ'', [.busy j]) := by
  have hgated := gated_exec envs cfg dropPercent worlds hbefore
  have hgated' := gated_exec envs cfg dropPercent worlds
    (Machine.exec_append.mpr ⟨δ, u, v, hbefore, hafter, rfl⟩)
  rcases leftOpen_exec after hafter hsurvives hlose hi hleft with ⟨σ', hi', -⟩
  rcases hgated.held hi rfl with ⟨hacquired, -⟩
  rcases hgated'.held hi' rfl with ⟨-, hreleased⟩
  refine ⟨fun hv => hreleased (List.mem_append_right u hv), fun j hj => ?_, fun j hj => ?_⟩
  · -- Whoever gets the permit gets it after this one has given it back.
    rcases List.append_of_mem hj with ⟨v₁, v₂, hv⟩
    rw [hv, ← List.append_assoc] at hgated' hreleased
    have hback := hgated'.admits.acquired (u ++ v₁) j v₂ rfl i (List.mem_append_left _ hacquired)
    exact hreleased (List.mem_append_left _ hback)
  · have hlt := hgated'.balanced.lt hi' rfl
    have hslot : δ'.slot = 0 := by omega
    exact ⟨{ δ' with tasks := δ'.tasks.set j .rejecting }, by simp only [step, hj, tryAcquire,
      hslot]⟩

/-- The sample encoder takes every picture of the sample source. -/
theorem sampleEncoder_survives {m : Thread (EncoderConfig × Bool) Unit}
    (hsource : m.source = .Synthetic fun _ => some ()) (t : Tick Unit) :
    System.Survives System.sampleEncoder m t := by
  refine ⟨fun _ _ => Option.some_ne_none _, fun m₁ b htakes => ?_,
    fun _ _ _ _ _ => Option.some_ne_none _⟩
  have hrendered : m₁.source = .Synthetic fun _ => some () := by
    cases htakes with
    | nothing _ => exact hsource
    | reopened params source encoder _ _ hopened => exact (Option.some.inj hopened).symm
  rw [Panics, hrendered]
  exact Option.some_ne_none _

/-- The session loop ends at a prefix over the limit, the media thread takes a turn,
    and the next client is turned away. -/
theorem busy_until_closed_over_limit : ∃ δ u σ δ' v,
    sampleRun (admittedActions ++ [.session 0 .readError]) = some (δ, u) ∧
    δ.tasks[0]? = some (.serving σ) ∧ LeftOpen 0 σ ∧
    Machine.exec (step (fun _ => overLimitEnv) oneStream 0 fun _ _ => System.sampleEncoder) δ
      [.session 0 (.turn 0 (System.idleTick false)), .incoming, .handshake 1 true] =
        some (δ', v) ∧
    ∃ δ'', step (fun _ => overLimitEnv) oneStream 0 (fun _ _ => System.sampleEncoder) δ'
      (.tryAcquire 1) = some (δ'', [.busy 1]) := by
  have hrun : ∃ δ u σ δ' v p m,
      sampleRun (admittedActions ++ [.session 0 .readError]) = some (δ, u) ∧
      δ.tasks[0]? = some (.serving σ) ∧
      (σ.returned = true ∧ σ.closed = false ∧ σ.pipelines[0]? = some p ∧ p.phase = .running m ∧
        m.source = .Synthetic fun _ => some ()) ∧
      Machine.exec (step (fun _ => overLimitEnv) oneStream 0 fun _ _ => System.sampleEncoder) δ
        [.session 0 (.turn 0 (System.idleTick false)), .incoming, .handshake 1 true] =
          some (δ', v) ∧ δ'.tasks[1]? = some .connected :=
    ⟨_, _, _, _, _, _, _, rfl, rfl, ⟨rfl, rfl, rfl, rfl, rfl⟩, rfl, rfl⟩
  rcases hrun with
    ⟨δ, u, σ, δ', v, p, m, hbefore, hi, ⟨hreturned, hopen, hp, hphase, hsource⟩, hafter, hj⟩
  have hleft : LeftOpen 0 σ := ⟨hreturned, hopen, p, m, hp, hphase⟩
  -- The thread takes its only turn in the first state.
  have hsurvives : Unfailing (fun _ => overLimitEnv) oneStream 0
      (fun _ _ => System.sampleEncoder) 0 0 δ
      [.session 0 (.turn 0 (System.idleTick false)), .incoming, .handshake 1 true] := by
    intro before t after δ₁ w σ₁ q m₁ hactions hfirst hserving hq hrunning
    cases before with
    | nil =>
        cases hfirst
        rw [hi, Option.some.injEq, Task.serving.injEq] at hserving
        rw [← hserving, hp, Option.some.injEq] at hq
        rw [← hq, hphase, System.Phase.running.injEq] at hrunning
        exact sampleEncoder_survives (hrunning ▸ hsource) t
    | cons a before =>
        have hmem : .session 0 (.turn 0 t) ∈ [Action.incoming, .handshake 1 true] := by
          rw [(List.cons.inj hactions).2]
          exact List.mem_append_right _ List.mem_cons_self
        simp only [List.mem_cons, reduceCtorEq, List.not_mem_nil, or_self] at hmem
  exact ⟨δ, u, σ, δ', v, hbefore, hi, hleft, hafter,
    (busy_until_closed hbefore hi hleft hafter hsurvives (by simp only [List.mem_cons,
      Action.session.injEq, reduceCtorEq, and_false, List.not_mem_nil, or_self,
      not_false_eq_true])).2.2 1 hj⟩

end Busy

end Daemon

end LoomHost
