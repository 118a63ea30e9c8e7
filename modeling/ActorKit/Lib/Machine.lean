import Mathlib.Tactic.Common

/-!
# Machines that answer

A machine takes one input at a time, moves to its next state and answers. Two
machines that keep related states and agree on every single answer agree on the
answers of whole runs.
-/

namespace ActorKit.Machine
variable {σ τ ι ο : Type}

/-- The state after a list of inputs, with the answers given on the way. -/
def run (step : σ → ι → σ × ο) (s : σ) : List ι → σ × List ο
  | [] => (s,[])
  | input :: rest =>
    let (s,answer) := step s input
    let (s,answers) := run step s rest
    (s,answer :: answers)

variable {step : σ → ι → σ × ο} {step' : τ → ι → τ × ο}

@[simp] theorem run_nil (s : σ) : run step s [] = (s,[]) := rfl

@[simp] theorem run_cons (s : σ) (input : ι) (rest : List ι) :
    run step s (input :: rest) =
      ((run step (step s input).1 rest).1,(step s input).2 :: (run step (step s input).1 rest).2) := rfl

theorem run_invariant {Inv : σ → Prop} (keeps : ∀ s input, Inv s → Inv (step s input).1) {s : σ} (starts : Inv s)
    (inputs : List ι) : Inv (run step s inputs).1 := by
  induction inputs generalizing s with
  | nil => exact starts
  | cons input inputs ih => exact ih (keeps s input starts)

theorem run_simulates {Related : σ → τ → Prop}
    (each : ∀ s t input, Related s t →
      Related (step s input).1 (step' t input).1 ∧ (step s input).2 = (step' t input).2)
    {s : σ} {t : τ} (related : Related s t) (inputs : List ι) :
    Related (run step s inputs).1 (run step' t inputs).1 ∧ (run step s inputs).2 = (run step' t inputs).2 := by
  induction inputs generalizing s t with
  | nil => exact ⟨related,rfl⟩
  | cons input inputs ih =>
    obtain ⟨kept,same⟩ := each s t input related
    obtain ⟨ended,answers⟩ := ih kept
    refine ⟨ended,?_⟩
    simp only [run_cons]
    rw [same,answers]

end ActorKit.Machine
