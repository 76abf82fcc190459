import LoomHost.Theory.Session.Sizes

/-!
# The Sizes in Force

The sizes a session puts in force, and the CONFIG each one comes from: the first
CONFIG when the media start, and the last one at every Reconfigure. A size is in
force only once its CONFIG is acknowledged, and the CONFIGs never go back.

CONFIGs are counted from 0 in the order they are sent; the `k`-th carries the
generation `k + 1`.

## Main definitions

* `Acked`: A CONFIG announces a size and is acknowledged.
* `switches`: The Reconfigures of a log, with their CONFIGs.

## Theorems

* `acked_of_started`: The first size in force.
* `acked_of_switch`: The others.
* `switches_sorted`: The CONFIGs never go back.
* `small_of_switch`: The sizes after the first fit in 32 bits.
-/

namespace LoomHost

namespace Session

open Cbor Control AckDiscipline

/-- CONFIG number `k` of a log, from 0, announces a size under the generation
    `k + 1`, a `u64`, and is acknowledged. -/
def Acked (entries : List Entry) (k : ℕ) (params : MediaParams) : Prop :=
  ∃ a body b ack c, entries = a ++ .config body :: b ++ .configAck ack :: c ∧
    (configs a).length = k ∧ intKey body 0 = some (((k + 1) % 2 ^ 64 : ℕ) : ℤ) ∧
    intKey ack 0 = intKey body 0 ∧ Announces body params

theorem Acked.append {entries : List Entry} {k : ℕ} {params : MediaParams}
    (h : Acked entries k params) (rest : List Entry) : Acked (entries ++ rest) k params := by
  rcases h with ⟨a, body, b, ack, c, rfl, hk, hnum, hgen, hsize⟩
  exact ⟨a, body, b, ack, c ++ rest, by simp only [List.append_assoc, List.cons_append], hk, hnum,
    hgen, hsize⟩

/-- The Reconfigures of a log, with the number of the last CONFIG before each,
    after `n` CONFIGs. -/
def switches : ℕ → List Entry → List (ℕ × MediaParams)
  | _, [] => []
  | n, e :: entries =>
    match exchange.view e with
    | .announce _ => switches (n + 1) entries
    | .apply params => (n - 1, params) :: switches n entries
    | _ => switches n entries

section Switches

theorem configs_cons (e : Entry) (entries : List Entry) :
    configs (e :: entries) = configs [e] ++ configs entries :=
  configs_append [e] entries

theorem switches_append (v w : List Entry) : ∀ n,
    switches n (v ++ w) = switches n v ++ switches (n + (configs v).length) w := by
  induction v with
  | nil => exact fun n => rfl
  | cons e v ih =>
      intro n
      rw [List.cons_append, switches, switches, configs_cons, List.length_append]
      cases hview : exchange.view e with
      | announce body =>
          -- An announcement moves the number on by one.
          have hone : (configs [e]).length = 1 := by
            simp only [announced, hview, Option.some.injEq, List.filterMap_cons_some,
              List.filterMap_nil, List.length_cons, List.length_nil, zero_add]
          rw [ih, hone, Nat.add_assoc]
      | apply params =>
          -- An application is a switch, and announces nothing.
          have hnone : (configs [e]).length = 0 := by
            simp only [announced, hview, List.filterMap_cons_none, List.filterMap_nil,
              List.length_nil]
          rw [hnone, Nat.zero_add]
          exact congrArg _ (ih n)
      | _ =>
          have hnone : (configs [e]).length = 0 := by
            simp only [announced, hview, List.filterMap_cons_none, List.filterMap_nil,
              List.length_nil]
          rw [hnone, Nat.zero_add]
          exact ih n

/-- A switch is a Reconfigure, with the last CONFIG before it. -/
theorem mem_switches (entries : List Entry) : ∀ (n : ℕ) (x : ℕ × MediaParams),
    x ∈ switches n entries → ∃ u w, entries = u ++ .out (.Reconfigure x.2) :: w ∧
      x.1 = n + (configs u).length - 1 := by
  induction entries with
  | nil => exact fun n x h => absurd h List.not_mem_nil
  | cons e entries ih =>
      intro n x h
      -- Found later, it is found after this entry too.
      have hlater (m : ℕ) (hm : m = n + (configs [e]).length) (hx : x ∈ switches m entries) :
          ∃ u w, e :: entries = u ++ .out (.Reconfigure x.2) :: w ∧
            x.1 = n + (configs u).length - 1 := by
        rcases ih m x hx with ⟨u, w, rfl, hnum⟩
        refine ⟨e :: u, w, rfl, ?_⟩
        rw [configs_cons, List.length_append]
        omega
      rw [switches] at h
      cases hview : exchange.view e with
      | announce body =>
          rw [hview] at h
          refine hlater (n + 1) ?_ h
          simp only [announced, hview, Option.some.injEq, List.filterMap_cons_some,
            List.filterMap_nil, List.length_cons, List.length_nil, zero_add]
      | apply params =>
          rw [hview] at h
          rcases List.mem_cons.mp h with rfl | h
          · exact ⟨[], entries, by rw [of_view_apply hview]; rfl, rfl⟩
          · exact hlater n (by simp only [announced, hview, List.filterMap_cons_none,
              List.filterMap_nil, List.length_nil, add_zero]) h
      | _ =>
          rw [hview] at h
          exact hlater n (by simp only [announced, hview, List.filterMap_cons_none,
            List.filterMap_nil, List.length_nil, add_zero]) h

theorem le_of_mem_switches (entries : List Entry) (n : ℕ) (x : ℕ × MediaParams)
    (h : x ∈ switches n entries) : n - 1 ≤ x.1 := by
  rcases mem_switches entries n x h with ⟨u, w, -, hnum⟩
  omega

/-- The CONFIGs of the switches never go back. -/
theorem switches_sorted (entries : List Entry) : ∀ n,
    (switches n entries).Pairwise fun x y => x.1 ≤ y.1 := by
  induction entries with
  | nil => exact fun n => List.Pairwise.nil
  | cons e entries ih =>
      intro n
      rw [switches]
      split
      · exact ih (n + 1)
      · exact List.pairwise_cons.mpr ⟨fun y hy => le_of_mem_switches entries n y hy, ih n⟩
      · exact ih n

end Switches

section Log

variable (hostName : String) (sessionId : Vector UInt8 16) (params : MediaParams)
  (extraStreams : List StreamConfig) (frames : List Decoded)

/-- When the media start, the first CONFIG is acknowledged. -/
theorem acked_of_started {u w : List Entry} {multi : Bool}
    (h : log (HostSession.new hostName sessionId params extraStreams) frames =
      u ++ .out (.StartMedia multi) :: w) : Acked u 0 params := by
  rcases (spoken_of_new hostName sessionId params extraStreams frames).start_media h with
    ⟨p, a, b, ack, hopened, -, ha, -, hack, rfl, -, -⟩
  have hannounces := announces_configBody p
  rw [hopened.params] at hannounces
  refine ⟨a ++ [.out (.Send WELCOME p.welcomeBody)], p.configBody, b, ack,
    [.out (.Send START [])], ?_, ?_, ?_, hack, hannounces⟩
  · simp only [opening, List.append_assoc, List.cons_append, List.nil_append]
  · rw [configs_append, configs_waiting ha]
    rfl
  · rw [intKey_configBody, hopened.generation]
    rfl

/-- At a Reconfigure, the last CONFIG is acknowledged and has its size. -/
theorem acked_of_switch {u w : List Entry} {applied : MediaParams}
    (h : log (HostSession.new hostName sessionId params extraStreams) frames =
      u ++ .out (.Reconfigure applied) :: w) :
    Acked u ((configs u).length - 1) applied := by
  rcases reconfigure_acknowledged hostName sessionId params extraStreams frames h with
    ⟨a, v, body, ack, rfl, -, hgen, hsize, hquiet⟩
  -- Nothing is announced between the CONFIG and its acknowledgement.
  have hnone : configs v = [] := by
    refine List.eq_nil_iff_forall_not_mem.mpr (fun b hb => ?_)
    exact (hquiet _ (mem_configs.mp hb)).1 b rfl
  have hlen : (configs (a ++ .config body :: v ++ [.configAck ack])).length - 1 =
      (configs a).length := by
    have hconfig : configs [Entry.config body] = [body] := rfl
    have hack : configs [Entry.configAck ack] = [] := rfl
    rw [configs_append, configs_append, configs_cons, hnone, hconfig, hack]
    simp only [List.append_nil, List.length_append, List.length_cons, List.length_nil, zero_add,
      add_tsub_cancel_right]
  have hcut : a ++ .config body :: v ++ [.configAck ack] ++ .out (.Reconfigure applied) :: w =
      a ++ .config body :: (v ++ .configAck ack :: .out (.Reconfigure applied) :: w) := by
    simp only [List.append_assoc, List.cons_append, List.nil_append]
  rw [hlen]
  exact ⟨a, body, v, ack, [], rfl, rfl, config_numbered hostName sessionId params extraStreams
    frames (h.trans hcut), hgen, hsize⟩

end Log

section Small

/-- A size that is pending is within the host's ceiling. -/
def Ceiled (s : HostSession) : Prop :=
  s.pendingGeneration ≠ none →
    s.params.width.toNat ≤ HOST_MAX_WIDTH.toNat ∧ s.params.height.toNat ≤ HOST_MAX_HEIGHT.toNat

theorem Reacts.ceiled {s s' : HostSession} {frame : Decoded} {outputs : List Output}
    (hr : Reacts s frame s' outputs) (h : Ceiled s) :
    Ceiled s' ∧ ∀ params, .Reconfigure params ∈ outputs →
      params.width.toNat ≤ HOST_MAX_WIDTH.toNat ∧ params.height.toNat ≤ HOST_MAX_HEIGHT.toNat := by
  cases hr with
  | hello body w w' s' _ _ _ _ heq =>
      refine ⟨fun hpending => ?_, by simp only [List.mem_cons, reduceCtorEq, List.not_mem_nil,
        or_self, IsEmpty.forall_iff, implies_true]⟩
      -- The size of the session is as it was.
      rw [heq] at hpending ⊢
      exact h hpending
  | viewport body rw rh w w' s' _ _ _ _ hclamp _ heq =>
      refine ⟨fun _ => ?_, by simp only [List.mem_cons, reduceCtorEq, List.not_mem_nil, or_self,
        IsEmpty.forall_iff, implies_true]⟩
      -- The size announced is clamped to the host's maximum.
      have hle := clampViewport_le_host s (UInt64.ofInt rw) (UInt64.ofInt rh)
      rw [hclamp] at hle
      rw [heq]
      exact hle
  | reconfigAck body g _ hpending _ =>
      refine ⟨fun hnone => absurd rfl hnone, fun params hparams => ?_⟩
      -- The size applied is the one announced.
      rw [Output.Reconfigure.inj (List.mem_singleton.mp hparams)]
      exact h (by simp only [hpending, ne_eq, reduceCtorEq, not_false_eq_true])
  | fatal msgType body code detail _ _ => exact ⟨h, by simp only [HostSession.fatal, List.mem_cons,
    reduceCtorEq, List.not_mem_nil, or_self, IsEmpty.forall_iff, implies_true]⟩
  | _ => exact ⟨h, by simp only [List.not_mem_nil, IsEmpty.forall_iff, implies_true, List.mem_cons,
    reduceCtorEq, or_self]⟩

/-- The size of every Reconfigure is within the host's ceiling. -/
theorem small_of_switch (frames : List Decoded) : ∀ {s : HostSession}, Ceiled s →
    ∀ params, .out (.Reconfigure params) ∈ log s frames →
      params.width.toNat ≤ HOST_MAX_WIDTH.toNat ∧ params.height.toNat ≤ HOST_MAX_HEIGHT.toNat := by
  induction frames with
  | nil => exact fun _ params hparams => absurd hparams List.not_mem_nil
  | cons frame frames ih =>
      intro s h params hparams
      rcases (onFrame_reacts s frame).ceiled h with ⟨h', houtputs⟩
      rw [log, List.mem_append, List.mem_cons] at hparams
      rcases hparams with (hrecv | hout) | hrest
      · exact absurd hrecv Entry.noConfusion
      · rcases List.mem_map.mp hout with ⟨o, ho, heq⟩
        exact houtputs params (Entry.out.inj heq ▸ ho)
      · exact ih h' params hrest

end Small

end Session

end LoomHost
