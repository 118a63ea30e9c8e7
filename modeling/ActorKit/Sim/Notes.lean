import ActorKit.Sim.Rounds

/-!
# What is noted in a run

A list of notes is taken of every round. The notes of a run are those of its
rounds, in order, up to the one that panicked.
-/

namespace ActorKit.Sim.Notes
open ActorKit.sim ActorKit.Program ActorKit.Sim.Rounds

variable {τ : Type}

/-- The notes of several rounds; a quiescent world has no more. -/
def roundsNotes (note : Sim → List τ) : Nat → Sim → List τ
  | 0,_ => []
  | steps + 1,s => if s.is_quiescent then [] else note s ++ upon sim.round s (fun _ => roundsNotes note steps)

/-- The notes of several calls of `run`. -/
def runsNotes (note : Sim → List τ) : List Nat → Sim → List τ
  | [],_ => []
  | steps :: runs,s => roundsNotes note steps s ++ upon (run steps) s (fun _ => runsNotes note runs)

/-- The notes of a simulation, none while the world is built. -/
def simulateNotes (note : Sim → List τ) (seed : UInt64) (config : SimConfig) (draws : Nat → UInt64) (outside : Outside)
    (runs : List Nat) : List τ :=
  upon with_config (.start seed config draws outside) (fun _ => runsNotes note runs)

section
variable {R : Sim → List τ → Sim → Prop} {note : Sim → List τ} (refl : ∀ s, R s [] s)
  (trans : ∀ {s s' s'' l l'}, R s l s' → R s' l' s'' → R s (l ++ l') s'') (round : ∀ s, R s (note s) (final sim.round s))
include refl trans round

/-- What holds over a round holds over many. -/
theorem rounds_rule (steps executed : Nat) (s : Sim) : R s (roundsNotes note steps s) (final (rounds steps executed) s) := by
  induction steps generalizing executed s with
  | zero => exact refl s
  | succ steps ih =>
    rw [roundsNotes]
    by_cases quiescent : s.is_quiescent = true
    · have settled : final (rounds (steps + 1) executed) s = s := by
        unfold final
        rw [rounds_settled quiescent]
      rw [if_pos quiescent,settled]
      exact refl s
    · have busy : final (rounds (steps + 1) executed) s = final (sim.round >>= fun _ => rounds steps (executed + 1)) s := by
        unfold final
        rw [rounds_busy (by simpa using quiescent)]
      rw [if_neg quiescent,busy]
      exact upon_rule trans (round s) (fun _ s' _ => ih (executed + 1) s')

theorem runs_rule (runs : List Nat) (s : Sim) :
    R s (runsNotes note runs s) (final (runs.forM (fun steps => do let _ ← run steps)) s) := by
  induction runs generalizing s with
  | nil => exact refl s
  | cons steps runs ih =>
    have first : R s (roundsNotes note steps s) (final (run steps) s) := by
      rw [run_final]
      exact rounds_rule refl trans round steps 0 s
    have next : List.forM (steps :: runs) (fun steps => do let _ ← run steps) =
        run steps >>= fun _ => runs.forM (fun steps => do let _ ← run steps) :=
      bind_assoc (run steps) (fun _ => pure ()) (fun _ => runs.forM (fun steps => do let _ ← run steps))
    rw [next]
    exact upon_rule trans first (fun _ s' _ => ih s')

end
end ActorKit.Sim.Notes
