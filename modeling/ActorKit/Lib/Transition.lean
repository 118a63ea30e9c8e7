import Mathlib.Logic.Basic

/-!
# Transition systems

A step function on states that refuses the labels it does not allow, the states
it reaches, and the rule that carries an invariant along every run. A run may be
restricted to steps that meet a condition in the state before them.
-/

namespace ActorKit.Transition
variable {σ α : Type}

/-- The states reached from `init` by steps that all meet `ok`. -/
inductive Reach (step : σ → α → Option σ) (ok : σ → α → Prop) (init : σ) : σ → Prop where
  | start : Reach step ok init init
  | next {s s' : σ} {a : α} (before : Reach step ok init s) (allowed : ok s a) (stepped : step s a = some s') :
      Reach step ok init s'

/-- The states reached by any steps. -/
abbrev Reachable (step : σ → α → Option σ) (init : σ) : σ → Prop := Reach step (fun _ _ => True) init

/-- The state after a list of labels, when every one of them is allowed. -/
def run (step : σ → α → Option σ) (s : σ) : List α → Option σ
  | [] => some s
  | a :: rest => (step s a).bind (fun s' => run step s' rest)

/-- Every state on the way of a run, the first and the last included, has the
    property. -/
def Along (step : σ → α → Option σ) (P : σ → Prop) (s : σ) : List α → Prop
  | [] => P s
  | a :: rest => P s ∧ ∀ s', step s a = some s' → Along step P s' rest

/-- Every step of a run meets the condition in the state before it. -/
def AllMeet (step : σ → α → Option σ) (ok : σ → α → Prop) (s : σ) : List α → Prop
  | [] => True
  | a :: rest => ∀ s', step s a = some s' → ok s a ∧ AllMeet step ok s' rest

variable {step : σ → α → Option σ} {ok : σ → α → Prop} {init : σ}

theorem Reach.invariant {Inv : σ → Prop} (starts : Inv init)
    (keeps : ∀ s a s', Inv s → ok s a → step s a = some s' → Inv s') {s : σ} (reached : Reach step ok init s) :
    Inv s := by
  induction reached with
  | start => exact starts
  | next _ allowed stepped ih => exact keeps _ _ _ ih allowed stepped

/-- A property that a step keeps exactly when the condition is met holds along a
    run exactly when all its steps meet the condition. -/
theorem along_iff {Inv P : σ → Prop} (keeps : ∀ s a s', Inv s → step s a = some s' → Inv s')
    (exact_ : ∀ s a s', Inv s → P s → step s a = some s' → (P s' ↔ ok s a)) {s : σ} (inv : Inv s) (holds : P s)
    (labels : List α) : Along step P s labels ↔ AllMeet step ok s labels := by
  induction labels generalizing s with
  | nil => exact iff_of_true holds trivial
  | cons a labels ih =>
    constructor
    · rintro ⟨-,rest⟩ s' stepped
      have after : P s' := by
        have there := rest s' stepped
        cases labels with
        | nil => exact there
        | cons => exact there.1
      exact ⟨(exact_ s a s' inv holds stepped).mp after,(ih (keeps s a s' inv stepped) after).mp (rest s' stepped)⟩
    · intro meets
      refine ⟨holds,fun s' stepped => ?_⟩
      obtain ⟨met,rest⟩ := meets s' stepped
      exact (ih (keeps s a s' inv stepped) ((exact_ s a s' inv holds stepped).mpr met)).mpr rest

/-- The last state of a run has what all its states have. -/
theorem Along.last {P : σ → Prop} {s s' : σ} {labels : List α} (along : Along step P s labels)
    (runs : run step s labels = some s') : P s' := by
  induction labels generalizing s with
  | nil => cases runs; exact along
  | cons a labels ih =>
    obtain ⟨next,stepped,rest⟩ := Option.bind_eq_some_iff.mp runs
    exact ih (along.2 next stepped) rest

/-- A run that checks the condition before every step and does not get stuck. -/
theorem allMeet_checked {checked : σ → α → Prop} [∀ s a, Decidable (checked s a)] {labels : List α} {s : σ}
    (runs : (run (fun s a => if checked s a then step s a else none) s labels).isSome) :
    AllMeet step checked s labels := by
  induction labels generalizing s with
  | nil => trivial
  | cons a labels ih =>
    intro s' stepped
    by_cases meets : checked s a
    · simp only [run,if_pos meets,stepped,Option.bind_some] at runs
      exact ⟨meets,ih runs⟩
    · simp [run,meets] at runs

theorem allMeet_and {ok' : σ → α → Prop} {s : σ} {labels : List α} (first : AllMeet step ok s labels)
    (second : AllMeet step ok' s labels) : AllMeet step (fun s a => ok s a ∧ ok' s a) s labels := by
  induction labels generalizing s with
  | nil => trivial
  | cons a labels ih =>
    intro s' stepped
    obtain ⟨here,rest⟩ := first s' stepped
    obtain ⟨here',rest'⟩ := second s' stepped
    exact ⟨⟨here,here'⟩,ih rest rest'⟩

/-- Two conditions that agree where the first has been met so far are met by the
    same runs. -/
theorem allMeet_iff {Inv : σ → Prop} {ok' : σ → α → Prop}
    (keeps : ∀ s a s', Inv s → ok s a → step s a = some s' → Inv s')
    (agree : ∀ s a s', Inv s → step s a = some s' → (ok' s a ↔ ok s a)) {s : σ} (inv : Inv s) (labels : List α) :
    AllMeet step ok' s labels ↔ AllMeet step ok s labels := by
  induction labels generalizing s with
  | nil => exact Iff.rfl
  | cons a labels ih =>
    constructor
    · intro meets s' stepped
      obtain ⟨met,rest⟩ := meets s' stepped
      have here := (agree s a s' inv stepped).mp met
      exact ⟨here,(ih (keeps s a s' inv here stepped)).mp rest⟩
    · intro meets s' stepped
      obtain ⟨met,rest⟩ := meets s' stepped
      exact ⟨(agree s a s' inv stepped).mpr met,(ih (keeps s a s' inv met stepped)).mpr rest⟩

theorem Reach.mono {ok' : σ → α → Prop} (weaker : ∀ s a, ok s a → ok' s a) {s : σ} (reached : Reach step ok init s) :
    Reach step ok' init s := by
  induction reached with
  | start => exact .start
  | next _ allowed stepped ih => exact .next ih (weaker _ _ allowed) stepped

/-- A step in front of a run. -/
theorem Reach.after {s s' : σ} {a : α} (allowed : ok init a) (stepped : step init a = some s)
    (reached : Reach step ok s s') : Reach step ok init s' := by
  induction reached with
  | start => exact .next .start allowed stepped
  | next _ allowed' stepped' ih => exact .next ih allowed' stepped'

/-- A run whose labels are allowed in every state. -/
theorem reach_run {labels : List α} {s s' : σ} (reached : Reach step ok init s) (allowed : ∀ a ∈ labels, ∀ s, ok s a)
    (runs : run step s labels = some s') : Reach step ok init s' := by
  induction labels generalizing s with
  | nil => cases runs; exact reached
  | cons a labels ih =>
    obtain ⟨next,stepped,rest⟩ := Option.bind_eq_some_iff.mp runs
    exact ih (.next reached (allowed a List.mem_cons_self s) stepped)
      (fun b member => allowed b (List.mem_cons_of_mem _ member)) rest

/-- A run that checks a condition before every step. -/
theorem reach_checked {checked : σ → α → Prop} [∀ s a, Decidable (checked s a)] {labels : List α} {s s' : σ}
    (reached : Reach step (fun s a => ok s a ∧ checked s a) init s) (allowed : ∀ a ∈ labels, ∀ s, ok s a)
    (runs : run (fun s a => if checked s a then step s a else none) s labels = some s') :
    Reach step (fun s a => ok s a ∧ checked s a) init s' := by
  induction labels generalizing s with
  | nil => cases runs; exact reached
  | cons a labels ih =>
    obtain ⟨next,stepped,rest⟩ := Option.bind_eq_some_iff.mp runs
    dsimp only at stepped
    split at stepped
    · next meets =>
      exact ih (.next reached ⟨allowed a List.mem_cons_self s,meets⟩ stepped)
        (fun b member => allowed b (List.mem_cons_of_mem _ member)) rest
    · cases stepped

/-- A run that checks before every step all that is asked of it. -/
theorem reach_guarded {checked : σ → α → Prop} [∀ s a, Decidable (checked s a)] {labels : List α} {s : σ}
    (runs : run (fun s a => if checked s a then step s a else none) init labels = some s) : Reach step checked init s := by
  have guarded : Reach step (fun s a => True ∧ checked s a) init s := reach_checked .start (fun _ _ _ => trivial) runs
  exact guarded.mono (fun _ _ allowed => allowed.2)

theorem reachable_run {labels : List α} {s s' : σ} (reached : Reachable step init s)
    (runs : run step s labels = some s') : Reachable step init s' :=
  reach_run reached (fun _ _ _ => trivial) runs

end ActorKit.Transition
