import ActorKit.Lifecycle

/-!
# Restart policies

Whose policy a restart asks. `handle_child_exit` consults the policy of the child
that exited; the siblings that `OneForAll` and `RestForOne` move with it are not
asked. A run respects the policies exactly when every granted restart spares the
siblings whose own policy forbids one.
-/

namespace ActorKit.Policies
open ActorKit.supervisor ActorKit.Exits
open ActorKit.Lifecycle (byHand)

/-- The reason a child is stopped with. -/
def ended : ChildState → Option ExitReason
  | .Stopped reason => some reason
  | _ => none

def restarting : ChildState → Bool
  | .Restarting _ => true
  | _ => false

/-- The way a child last ended: the exit that is being reported, or the reason it
    is stopped with. -/
def lastEnd (key : String) (child : SupervisedChild) : Op → Option ExitReason
  | .handle_child_exit name reason _ _ => if name = key then some reason else ended child.state
  | _ => ended child.state

/-- The policy of the child lets it enter `Restarting`: it restarts the way the
    child last ended, or the child is active and not temporary. -/
def permitted (op : Op) (key : String) (child : SupervisedChild) : Bool :=
  match lastEnd key child op with
  | some reason => Supervisor.should_restart child.spec.restart_policy reason
  | none => child.spec.restart_policy ≠ .Temporary && child.state.is_active

/-- Whoever the operation moves to `Restarting` has a policy that permits it. -/
def Respects (s : Supervisor) (op : Op) : Prop :=
  byHand op = false → ∀ key child child', s.children.lookup key = some child →
    (s.apply op).children.lookup key = some child' → restarting child.state = false →
    restarting child'.state = true → permitted op key child = true

/-- Every operation of the run respects the policies. -/
def PolicyRespected (s : Supervisor) (ops : List Op) : Prop :=
  ∀ before op, before ++ [op] <+: ops → Respects (s.run before) op

/-- A restart that would be granted moves no sibling that is temporary, that is
    stopping, or that stopped in a way its policy does not restart. -/
def Spares (s : Supervisor) : Op → Prop
  | .handle_child_exit name reason now _ =>
    ∀ r w, decision s name reason = some (r,w) → s.check_restart_allowed name r w now.check = true →
      ∀ key child, s.children.lookup key = some child → moves s name key child = true → key ≠ name →
        match child.state with
        | .Restarting _ => True
        | .Running => child.spec.restart_policy ≠ .Temporary
        | .Stopping => False
        | .Stopped reason => Supervisor.should_restart child.spec.restart_policy reason = true
  | _ => True

theorem not_restarting_write {s : Supervisor} {name key : String} {state : ChildState} (idle : restarting state = false)
    {child child' : SupervisedChild} (found : s.children.lookup key = some child)
    (later : (s.children.modify name (fun c => { c with state := state })).lookup key = some child')
    (before : restarting child.state = false) : restarting child'.state = false := by
  rw [Dict.lookup_modify,found] at later
  by_cases same : key = name
  · simp only [same,if_true,Option.map_some,Option.some.injEq] at later
    rw [← later]
    exact idle
  · simp only [same,if_false,Option.some.injEq] at later
    rw [← later]
    exact before

/-- Only an exit moves a child to `Restarting`. -/
theorem quiet_never_restarts {s : Supervisor} {op : Op} (quiet : isExit op = false) (kept : byHand op = false)
    {key : String} {child child' : SupervisedChild} (found : s.children.lookup key = some child)
    (later : (s.apply op).children.lookup key = some child') (before : restarting child.state = false) :
    restarting child'.state = false := by
  have same : s.children.lookup key = some child' → restarting child'.state = false := by
    intro later
    rw [found] at later
    cases later
    exact before
  have effect := apply_effect s op
  generalize s.apply op = after at effect later
  cases effect with
  | exit => cases quiet
  | byHand => cases kept
  | escalation | taken | idle => exact same later
  | started spec id free =>
    have apart : key ≠ spec.name := by
      rintro rfl
      rw [found] at free
      cases free
    simp only [Dict.lookup_insert_ite,apart,if_false] at later
    exact same later
  | removed name =>
    simp only [Dict.lookup_erase_ite] at later
    split at later
    · cases later
    · exact same later
  | state _ name _ _ _ state _ settled =>
    have calm : restarting state = false := by
      cases state with
      | Restarting attempt => exact absurd rfl (settled attempt)
      | Running | Stopping | Stopped => rfl
    exact not_restarting_write calm found later before

/-- What `Spares` asks of a sibling is what its policy permits. -/
theorem permitted_sibling {name key : String} (apart : key ≠ name) (reason : ExitReason) (now : Readings)
    (mint : String → ActorId) (child : SupervisedChild) (before : restarting child.state = false) :
    permitted (.handle_child_exit name reason now mint) key child = true ↔
      match child.state with
      | .Restarting _ => True
      | .Running => child.spec.restart_policy ≠ .Temporary
      | .Stopping => False
      | .Stopped reason => Supervisor.should_restart child.spec.restart_policy reason = true := by
  simp only [permitted,lastEnd,Ne.symm apart,if_false]
  cases state : child.state with
  | Restarting attempt =>
    rw [state] at before
    cases before
  | Running => simp [ended,ChildState.is_active]
  | Stopping => simp [ended,ChildState.is_active]
  | Stopped reason => simp [ended]

/-- One operation respects the policies exactly when it spares the siblings. -/
theorem respects_iff (s : Supervisor) (op : Op) : Respects s op ↔ Spares s op := by
  cases exit : isExit op with
  | false =>
    constructor
    · intro _
      cases op with
      | handle_child_exit => cases exit
      | _ => trivial
    · intro _ kept key child child' found later before after
      rw [quiet_never_restarts exit kept found later before] at after
      cases after
  | true =>
    cases op with
    | handle_child_exit name reason now mint =>
      have outcome := exit_outcome s name reason now mint
      constructor
      · -- A granted restart moves the sibling, so its policy was asked to permit it.
        intro respects r w reached allowed key child found moved apart
        by_cases before : restarting child.state = false
        · refine (permitted_sibling apart reason now mint child before).mp ?_
          have granted : (s.apply (.handle_child_exit name reason now mint)).children.lookup key =
              (restarted s name now.record mint).children.lookup key := by
            rw [Supervisor.apply,exit_restarts mint reached allowed]
          rw [lookup_restarted,found,Option.map_some,if_pos moved] at granted
          exact respects rfl key child _ found granted before rfl
        · cases state : child.state with
          | Restarting attempt => trivial
          | Running | Stopping | Stopped reason => simp [state,restarting] at before
      · intro spares _ key child child' found later before after
        by_cases same : key = name
        · subst same
          simp only [permitted,lastEnd,if_true]
          by_contra unwanted
          have none : decision s key reason = none := by
            simp [decision,found,unwanted]
          have stays : restarting child'.state = false := by
            simp only [Supervisor.apply] at later
            generalize (s.handle_child_exit key reason now mint).1 = t at outcome later
            cases outcome with
            | undecided => exact not_restarting_write rfl found later before
            | refused => exact not_restarting_write rfl found later before
            | granted r w reached => rw [none] at reached; cases reached
          rw [stays] at after
          cases after
        · refine (permitted_sibling same reason now mint child before).mpr ?_
          simp only [Supervisor.apply] at later
          generalize (s.handle_child_exit name reason now mint).1 = t at outcome later
          cases outcome with
          | undecided | refused =>
            rw [not_restarting_write rfl found later before] at after
            cases after
          | granted r w reached allowed =>
            have moved : moves s name key child = true := by
              by_contra still
              rw [lookup_restarted,found,Option.map_some,if_neg still] at later
              cases later
              rw [before] at after
              cases after
            exact spares r w reached allowed key child found moved same
    | _ => cases exit

/-- A run respects the policies exactly when each of its granted restarts spares
    the siblings whose policy forbids one. -/
theorem policy_respected_iff (s : Supervisor) (ops : List Op) :
    PolicyRespected s ops ↔ ∀ before op, before ++ [op] <+: ops → Spares (s.run before) op := by
  constructor
  · intro respected before op part
    exact (respects_iff (s.run before) op).mp (respected before op part)
  · intro spares before op part
    exact (respects_iff (s.run before) op).mpr (spares before op part)

/-- A temporary child ends, and then its permanent sibling fails. -/
def siblingFails : List Op :=
  [.start_child { name := "job", restart_policy := .Temporary } ⟨1⟩,.start_child { name := "server" } ⟨2⟩,
    .handle_child_exit "job" .Normal ⟨0,0⟩ (fun _ => ⟨3⟩),.handle_child_exit "server" .Killed ⟨1,1⟩ (fun _ => ⟨4⟩)]

/-- `OneForAll` moves the temporary child that has ended to `Restarting`. -/
theorem temporary_restarts : ¬ ∀ (s : Supervisor) (ops : List Op), PolicyRespected s ops := by
  intro always
  have respects := always (.new ⟨0⟩ (.OneForAll 3 60)) siblingFails (siblingFails.take 3)
    (.handle_child_exit "server" .Killed ⟨1,1⟩ (fun _ => ⟨4⟩)) (List.prefix_refl _)
  let job : SupervisedChild := ⟨⟨1⟩,{ name := "job", restart_policy := .Temporary },.Stopped .Normal,0⟩
  have permits := respects rfl "job" job { job with id := ⟨4⟩, state := .Restarting 1 } (by decide +kernel)
    (by decide +kernel) rfl rfl
  cases permits

end ActorKit.Policies
