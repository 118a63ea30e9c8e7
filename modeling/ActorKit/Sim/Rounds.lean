import ActorKit.Sim.World

/-!
# Rounds

A round is its phases in order, once its tick is counted. Rounds follow each other
until the world is quiescent; then, or after a panic, more of them change nothing.
-/

namespace ActorKit.Sim.Rounds
open ActorKit.sim ActorKit.Program

/-- The phases of a round before its picks. -/
def gather : SimM Unit := do
  inject_workload
  deliver_due
  retry_blocked

/-- The phases of a round. -/
def work (draws : Nat) : SimM Unit := do
  gather
  process_ready draws

/-- The audit at its end. -/
def audit : SimM Unit := do
  let s ← get
  lift s.audit_counts

/-- A round, when its tick is counted. -/
theorem round_run {s : Sim} {tick : Nat} (counted : checked (s.tick + 1) = .ok tick) :
    sim.round s = (work s.config.processing_per_tick.toNat >>= fun _ => audit) { s with tick } := by
  obtain rfl := checked_ok counted
  unfold work gather
  simp only [bind_assoc]
  show (lift (checked (s.tick + 1)) >>= _ : SimM Unit) s = _
  rw [counted]
  rfl

/-- The audit looks only. -/
theorem audit_final (s : Sim) : final audit s = s := by
  show final (lift s.audit_counts : SimM Unit) s = s
  cases s.audit_counts <;> rfl

theorem round_overflow {s : Sim} {e : Failure} (overflow : checked (s.tick + 1) = .error e) : sim.round s = .error e s := by
  show (lift (checked (s.tick + 1)) >>= _ : SimM Unit) s = _
  rw [overflow]
  rfl

/-- A round whose tick overflows does nothing. -/
theorem round_stays {s : Sim} {e : Failure} (overflow : checked (s.tick + 1) = .error e) : final sim.round s = s :=
  final_error (round_overflow overflow)

theorem round_phases {s s' : Sim} (ended : sim.round s = .ok () s') :
    ∃ s₂ s₃ s₄, inject_workload { s with tick := s.tick + 1 } = .ok () s₂ ∧ deliver_due s₂ = .ok () s₃ ∧
      retry_blocked s₃ = .ok () s₄ ∧ process_ready s.config.processing_per_tick.toNat s₄ = .ok () s' := by
  cases counted : checked (s.tick + 1) with
  | error e =>
    rw [round_overflow counted] at ended
    cases ended
  | ok tick =>
    rw [round_run counted,checked_ok counted] at ended
    obtain ⟨_,s₅,works,audits⟩ := bind_ends ended
    obtain ⟨_,s₄,gathers,works⟩ := bind_ends works
    obtain ⟨_,s₂,injects,gathers⟩ := bind_ends gathers
    obtain ⟨_,s₃,delivers,retries⟩ := bind_ends gathers
    have unchanged : s₅ = s' := (audit_final s₅).symm.trans (final_ok audits)
    rw [← unchanged]
    exact ⟨s₂,s₃,s₄,injects,delivers,retries,works⟩

/-! ## Many rounds -/

theorem rounds_busy {s : Sim} (busy : s.is_quiescent = false) (steps executed : Nat) :
    rounds (steps + 1) executed s = (sim.round >>= fun _ => rounds steps (executed + 1)) s := by
  show (if s.is_quiescent then pure executed else sim.round >>= fun _ => rounds steps (executed + 1) : SimM Nat) s = _
  rw [if_neg (by simp [busy])]

theorem rounds_step {s s₁ : Sim} (busy : s.is_quiescent = false) (ended : sim.round s = .ok () s₁) (steps executed : Nat) :
    rounds (steps + 1) executed s = rounds steps (executed + 1) s₁ := by
  rw [rounds_busy busy,bind_run,ended]

theorem rounds_settled {s : Sim} (quiescent : s.is_quiescent = true) (steps executed : Nat) :
    rounds steps executed s = .ok executed s := by
  cases steps with
  | zero => rfl
  | succ steps =>
    show (if s.is_quiescent then pure executed else sim.round >>= fun _ => rounds steps (executed + 1) : SimM Nat) s = _
    rw [if_pos quiescent]
    rfl

/-- More rounds change nothing once the world is quiescent or has panicked. -/
theorem rounds_add {first executed : Nat} {s : Sim} (finished : match rounds first executed s with
      | .ok _ s' => s'.is_quiescent = true
      | .error _ _ => True) (more : Nat) :
    rounds (first + more) executed s = rounds first executed s := by
  induction first generalizing executed s with
  | zero =>
    rw [Nat.zero_add]
    exact rounds_settled finished more executed
  | succ first ih =>
    rw [Nat.add_right_comm]
    cases quiescent : s.is_quiescent with
    | true => rw [rounds_settled quiescent,rounds_settled quiescent]
    | false =>
      cases result : sim.round s with
      | error e s₁ => rw [rounds_busy quiescent,rounds_busy quiescent,bind_run,bind_run,result]
      | ok _ s₁ =>
        rw [rounds_step quiescent result] at finished
        rw [rounds_step quiescent result,rounds_step quiescent result]
        exact ih finished

/-- What `run` does after its rounds leaves the state as it is. -/
theorem run_final (k : Nat) (s : Sim) : final (run k) s = final (rounds k 0) s := by
  refine final_bind_still (fun executed s' => ?_) s
  have read : (get : SimM Sim) s' = .ok s' s' := rfl
  rw [final_bind read]
  cases s'.is_quiescent with
  | false => rfl
  | true => cases s'.audit_identities <;> rfl

/-- A program that ends with a fixed result ends where its body ends. -/
theorem final_last {α β : Type} {p : SimM α} {b : β} (s : Sim) : final (p >>= fun _ => pure b) s = final p s :=
  final_bind_still (fun _ _ => rfl) s

/-- The world a program comes to, whether it panics or not. -/
def reached {α : Type} : EStateM.Result Failure Sim α → Sim
  | .ok _ s => s
  | .error _ s => s

theorem reached_run {α : Type} (p : SimM α) (s : Sim) : reached (p s) = final p s := by
  unfold final
  cases p s <;> rfl

end ActorKit.Sim.Rounds
