import Mathlib.Logic.Function.Basic
import ActorKit.Lib.Transition

/-!
# The Quint model of the supervisor

The model of `spec/supervisor.qnt`, for any type of children and any
`MAX_RESTARTS`.
-/

namespace ActorKit.quint

/-- The lifecycle values. The string type of the model has others, and so has
    `ChildState`; one stands for them. -/
inductive Lifecycle where
  | running
  | restarting
  | stopped
  | stopping
deriving DecidableEq, Repr

/-- The values reachable on the crash and restart path. -/
def LIFECYCLE : List Lifecycle := [.running,.restarting,.stopped]

/-- The variables of the model. -/
@[ext] structure State (Child : Type) where
  state : Child → Lifecycle
  restarts : Child → Nat
  escalated : Child → Bool

section
variable {Child : Type} [DecidableEq Child]

def init : State Child where
  state := fun _ => .running
  restarts := fun _ => 0
  escalated := fun _ => false

/-- A running child crashes; the supervisor handles the exit in the same step. -/
def crash (MAX_RESTARTS : Nat) (s : State Child) (c : Child) : Option (State Child) :=
  if s.restarts c < MAX_RESTARTS then
    if s.state c = .running then
      some { s with
        restarts := Function.update s.restarts c (s.restarts c + 1)
        state := Function.update s.state c .restarting }
    else none
  else
    if s.state c = .running then
      some { s with
        state := Function.update s.state c .stopped
        escalated := Function.update s.escalated c true }
    else none

/-- A restarted child came back up. -/
def resume (s : State Child) (c : Child) : Option (State Child) :=
  if s.state c = .restarting then some { s with state := Function.update s.state c .running } else none

/-- The choice an action makes. -/
inductive Action (Child : Type) where
  | crash (c : Child)
  | resume (c : Child)

def step (MAX_RESTARTS : Nat) (s : State Child) : Action Child → Option (State Child)
  | .crash c => quint.crash MAX_RESTARTS s c
  | .resume c => quint.resume s c

/-! ## Invariants -/

def inv1_child_in_exactly_one_lifecycle_state (s : State Child) : Prop := ∀ c, s.state c ∈ LIFECYCLE

def inv2_running_implies_restart_budget_ok (MAX_RESTARTS : Nat) (s : State Child) : Prop :=
  ∀ c, s.state c = .running → s.restarts c ≤ MAX_RESTARTS

def inv3_escalated_child_never_runs_again (s : State Child) : Prop := ∀ c, s.escalated c = true → s.state c = .stopped

/-- Conjunction of all model invariants. -/
structure AllInvariants (MAX_RESTARTS : Nat) (s : State Child) : Prop where
  inv1 : inv1_child_in_exactly_one_lifecycle_state s
  inv2 : inv2_running_implies_restart_budget_ok MAX_RESTARTS s
  inv3 : inv3_escalated_child_never_runs_again s

/-- The restart count is within the budget in every state, not only while the
    child is running; this is what the actions preserve. -/
structure Inductive (MAX_RESTARTS : Nat) (s : State Child) : Prop where
  lifecycle : ∀ c, s.state c ∈ LIFECYCLE
  budget : ∀ c, s.restarts c ≤ MAX_RESTARTS
  escalated : ∀ c, s.escalated c = true → s.state c = .stopped

omit [DecidableEq Child] in
theorem Inductive.all {r : Nat} {s : State Child} (inv : Inductive r s) : AllInvariants r s :=
  ⟨inv.lifecycle,fun c _ => inv.budget c,inv.escalated⟩

omit [DecidableEq Child] in
theorem inductive_init (r : Nat) : Inductive r (init : State Child) where
  lifecycle := fun _ => List.mem_cons_self
  budget := fun _ => Nat.zero_le _
  escalated := fun _ escalated => by cases escalated

/-- A child that is not stopped changes its state and nothing else. -/
theorem Inductive.moved {r : Nat} {s : State Child} (inv : Inductive r s) {c : Child} (lives : s.state c ≠ .stopped)
    (value : Lifecycle) (known : value ∈ LIFECYCLE) : Inductive r { s with state := Function.update s.state c value } where
  lifecycle := by
    intro d
    by_cases same : d = c
    · subst same
      simpa using known
    · simpa [same] using inv.lifecycle d
  budget := inv.budget
  escalated := by
    intro d escalated
    have stopped := inv.escalated d escalated
    have same : d ≠ c := by
      rintro rfl
      exact lives stopped
    simpa [same] using stopped

theorem inductive_step {r : Nat} {s s' : State Child} {a : Action Child} (inv : Inductive r s)
    (stepped : step r s a = some s') : Inductive r s' := by
  cases a with
  | crash c =>
    simp only [step,crash] at stepped
    split at stepped
    · next below =>
      split at stepped <;> cases stepped
      next running =>
      have moved := inv.moved (by rw [running]; decide) .restarting (by decide)
      refine { moved with budget := fun d => ?_ }
      by_cases same : d = c
      · subst same
        simp only [Function.update_self]
        omega
      · simpa [same] using inv.budget d
    · split at stepped <;> cases stepped
      next running =>
      have moved := inv.moved (by rw [running]; decide) .stopped (by decide)
      refine { moved with escalated := fun d escalated => ?_ }
      by_cases same : d = c
      · subst same
        simp
      · simp only [Function.update_of_ne same] at escalated ⊢
        exact inv.escalated d escalated
  | resume c =>
    simp only [step,resume] at stepped
    split at stepped <;> cases stepped
    next restarting => exact inv.moved (by rw [restarting]; decide) .running (by decide)

/-- The invariants hold in every reachable state of the model. -/
theorem all_invariants {r : Nat} {s : State Child} (reached : Transition.Reachable (step r) init s) :
    AllInvariants r s :=
  (reached.invariant (inductive_init r) (fun _ _ _ inv _ stepped => inductive_step inv stepped)).all

end
end ActorKit.quint
