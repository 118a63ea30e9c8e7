import ActorKit.Supervisor

/-!
# What an exit does

One case analysis of `handle_child_exit`: an exit without a restart decision and
a refused restart stop the child, a granted restart is charged to it and moves
the children its strategy names. Every result about runs uses these cases.
-/

namespace ActorKit.Exits
open ActorKit.supervisor ActorKit.Window

/-- The limit and the window of a strategy that restarts. -/
def limits : SupervisionStrategy → Option (UInt32 × Duration)
  | .OneForOne r w | .OneForAll r w | .RestForOne r w => some (r,w)
  | .SimpleOneForOne => none

theorem within_limits (strategy : SupervisionStrategy) : strategy.within = (limits strategy).map (·.2) := by
  cases strategy <;> rfl

/-- The limit and the window of the restart decision an exit reaches, when it
    reaches one. -/
def decision (s : Supervisor) (name : String) (reason : ExitReason) : Option (UInt32 × Duration) :=
  match s.children.lookup name with
  | some child => if Supervisor.should_restart child.spec.restart_policy reason then limits s.strategy else none
  | none => none

theorem decision_limits {s : Supervisor} {name : String} {reason : ExitReason} {r : UInt32} {w : Duration}
    (reached : decision s name reason = some (r,w)) : limits s.strategy = some (r,w) := by
  unfold decision at reached
  split at reached
  · split at reached
    · exact reached
    · cases reached
  · cases reached

theorem decision_child {s : Supervisor} {name : String} {reason : ExitReason} {r : UInt32} {w : Duration}
    (reached : decision s name reason = some (r,w)) : ∃ child, s.children.lookup name = some child := by
  unfold decision at reached
  split at reached
  · exact ⟨_,by assumption⟩
  · cases reached

/-- Whether the exit leaves its child restarting. -/
def granted (s : Supervisor) (name : String) (reason : ExitReason) (now : Readings) (mint : String → ActorId) : Bool :=
  match (s.handle_child_exit name reason now mint).1.children.lookup name with
  | some child => match child.state with
    | .Restarting _ => true
    | _ => false
  | none => false

/-- The children a granted restart moves: the one that exited, all, or all
    started no earlier than it. -/
def moves (s : Supervisor) (name key : String) (child : SupervisedChild) : Bool :=
  match s.strategy with
  | .OneForOne _ _ => key = name
  | .OneForAll _ _ => true
  | .RestForOne _ _ => match s.children.lookup name with
    | some failed => failed.start_order ≤ child.start_order
    | none => false
  | .SimpleOneForOne => false

theorem moves_self {s : Supervisor} {name : String} {child : SupervisedChild}
    (present : s.children.lookup name = some child) (restarts : limits s.strategy ≠ none) :
    moves s name name child = true := by
  cases kind : s.strategy <;> simp_all [moves,limits]

/-- The name whose log gives a moved child its attempt number. -/
def chargedName (s : Supervisor) (name : String) (child : SupervisedChild) : String :=
  match s.strategy with
  | .OneForOne _ _ => name
  | _ => child.spec.name

/-- The supervisor with one child stopped. -/
def stopped (s : Supervisor) (name : String) (reason : ExitReason) : Supervisor :=
  { s with children := s.children.modify name (fun c => { c with state := .Stopped reason }) }

/-- The supervisor after a granted restart. -/
def restarted (s : Supervisor) (name : String) (now : Instant) (mint : String → ActorId) : Supervisor :=
  { s.charge name now with
    children := s.children.mapValues (fun key child =>
      if moves s name key child then
        { child with state := .Restarting ((s.charge name now).attempt (chargedName s name child)), id := mint key }
      else child) }

/-- What an exit can do. -/
inductive Outcome (s : Supervisor) (name : String) (reason : ExitReason) (now : Readings) (mint : String → ActorId) :
    Supervisor → Prop where
  | undecided (none : decision s name reason = none) : Outcome s name reason now mint (stopped s name reason)
  | refused (r : UInt32) (w : Duration) (text : ExitReason) (reached : decision s name reason = some (r,w))
      (full : s.check_restart_allowed name r w now.check = false) :
      Outcome s name reason now mint (stopped s name text)
  | granted (r : UInt32) (w : Duration) (reached : decision s name reason = some (r,w))
      (allowed : s.check_restart_allowed name r w now.check = true) :
      Outcome s name reason now mint (restarted s name now.record mint)

theorem exceeded_stops (s : Supervisor) (name : String) (r : UInt32) :
    ∃ text, (s.handle_max_restarts_exceeded name r).1 = stopped s name text := by
  unfold Supervisor.handle_max_restarts_exceeded
  dsimp only
  split <;> exact ⟨_,rfl⟩

/-- A granted restart under each strategy is the one described by `moves`. -/
theorem allowed_restarts {s : Supervisor} {name : String} {r : UInt32} {w : Duration} {now : Readings}
    {child : SupervisedChild} (mint : String → ActorId) (found : s.children.lookup name = some child)
    (allowed : s.check_restart_allowed name r w now.check = true) :
    (s.strategy = .OneForOne r w → (s.restart_one_for_one name r w now mint).1 = restarted s name now.record mint) ∧
    (s.strategy = .OneForAll r w → (s.restart_one_for_all name r w now mint).1 = restarted s name now.record mint) ∧
    (s.strategy = .RestForOne r w → (s.restart_rest_for_one name r w now mint).1 = restarted s name now.record mint) := by
  refine ⟨?_,?_,?_⟩ <;> intro kind
  · simp only [Supervisor.restart_one_for_one,allowed,Bool.not_true,Bool.false_eq_true,if_false,restarted,moves,
      chargedName,kind,Dict.modify,decide_eq_true_eq]
    -- The source mints for `name`, the description for the key: they agree where the child is moved.
    have same : ∀ (k : String) (c : SupervisedChild) (state : ChildState),
        (if k = name then { c with id := mint name, state := state } else c) =
          if k = name then { c with id := mint k, state := state } else c := by
      intro k c state
      by_cases equal : k = name <;> simp [equal]
    simp only [same]
    rfl
  · simp [Supervisor.restart_one_for_all,allowed,restarted,moves,chargedName,kind,Supervisor.charge,
      Supervisor.record_restart]
  · simp [Supervisor.restart_rest_for_one,allowed,found,restarted,moves,chargedName,kind,Supervisor.charge,
      Supervisor.record_restart]

theorem exit_outcome (s : Supervisor) (name : String) (reason : ExitReason) (now : Readings)
    (mint : String → ActorId) : Outcome s name reason now mint (s.handle_child_exit name reason now mint).1 := by
  unfold Supervisor.handle_child_exit
  cases found : s.children.lookup name with
  | none =>
    have same : stopped s name reason = s := by
      rw [stopped,Dict.modify_absent _ _ _ found]
    have outcome : Outcome s name reason now mint (stopped s name reason) := .undecided (by simp [decision,found])
    rwa [same] at outcome
  | some child =>
    by_cases wanted : Supervisor.should_restart child.spec.restart_policy reason = true
    · simp only [wanted,Bool.not_true,Bool.false_eq_true,if_false]
      have reached : decision s name reason = limits s.strategy := by simp [decision,found,wanted]
      cases kind : s.strategy with
      | SimpleOneForOne =>
        simp only
        rw [← kind]
        exact .undecided (by rw [reached,kind]; rfl)
      | OneForOne r w | OneForAll r w | RestForOne r w =>
        have reached : decision s name reason = some (r,w) := by rw [reached,kind]; rfl
        cases check : s.check_restart_allowed name r w now.check with
        | false =>
          obtain ⟨text,stops⟩ := exceeded_stops s name r
          simp only [Supervisor.restart_one_for_one,Supervisor.restart_one_for_all,Supervisor.restart_rest_for_one,
            check,Bool.not_false,if_true,stops]
          exact .refused r w text reached check
        | true =>
          obtain ⟨one,all,rest⟩ := allowed_restarts mint found check
          simp only [kind,one,all,rest]
          exact .granted r w reached check
    · simp only [wanted,Bool.not_false,if_true]
      exact .undecided (by simp [decision,found,wanted])

@[simp] theorem lookup_stopped (s : Supervisor) (name key : String) (reason : ExitReason) :
    (stopped s name reason).children.lookup key =
      if key = name then (s.children.lookup key).map (fun c => { c with state := .Stopped reason })
      else s.children.lookup key := by
  simp [stopped]

@[simp] theorem lookup_restarted (s : Supervisor) (name key : String) (now : Instant) (mint : String → ActorId) :
    (restarted s name now mint).children.lookup key = (s.children.lookup key).map (fun child =>
      if moves s name key child then
        { child with state := .Restarting ((s.charge name now).attempt (chargedName s name child)), id := mint key }
      else child) := by
  simp [restarted]

/-- The child restarts exactly when its exit reaches the decision and the
    decision allows it. -/
theorem granted_iff (s : Supervisor) (name : String) (reason : ExitReason) (now : Readings) (mint : String → ActorId) :
    granted s name reason now mint = true ↔
      ∃ r w, decision s name reason = some (r,w) ∧ s.check_restart_allowed name r w now.check = true := by
  unfold granted
  have outcome := exit_outcome s name reason now mint
  generalize (s.handle_child_exit name reason now mint).1 = after at outcome ⊢
  cases outcome with
  | undecided none =>
    cases found : s.children.lookup name <;> simp [found,none]
  | refused r w text reached full =>
    cases found : s.children.lookup name <;> simp [found,reached,full]
  | granted r w reached allowed =>
    obtain ⟨child,found⟩ := decision_child reached
    have moved := moves_self found (by rw [decision_limits reached]; simp)
    simp [found,moved,reached,allowed]

/-- An exit whose decision allows it restarts. -/
theorem exit_restarts {s : Supervisor} {name : String} {reason : ExitReason} {now : Readings} {r : UInt32} {w : Duration}
    (mint : String → ActorId) (reached : decision s name reason = some (r,w))
    (allowed : s.check_restart_allowed name r w now.check = true) :
    (s.handle_child_exit name reason now mint).1 = restarted s name now.record mint := by
  have outcome := exit_outcome s name reason now mint
  generalize (s.handle_child_exit name reason now mint).1 = after at outcome ⊢
  cases outcome with
  | undecided none => rw [none] at reached; cases reached
  | refused r' w' _ reached' full =>
    rw [reached] at reached'
    cases reached'
    rw [allowed] at full
    cases full
  | granted => rfl

/-- Any other exit stops its child. -/
theorem exit_stops {s : Supervisor} {name : String} {reason : ExitReason} {now : Readings} {mint : String → ActorId}
    (refused : ¬ granted s name reason now mint = true) :
    ∃ text, (s.handle_child_exit name reason now mint).1 = stopped s name text := by
  rw [granted_iff] at refused
  have outcome := exit_outcome s name reason now mint
  generalize (s.handle_child_exit name reason now mint).1 = after at outcome ⊢
  cases outcome with
  | undecided => exact ⟨reason,rfl⟩
  | refused _ _ text => exact ⟨text,rfl⟩
  | granted r w reached allowed => exact absurd ⟨r,w,reached,allowed⟩ refused

/-- Whether an operation reports an exit. -/
def isExit : Op → Bool
  | .handle_child_exit .. => true
  | _ => false

/-- The child an operation may give another state, when it does nothing else. -/
def target : Op → Option String
  | .stop_child name | .terminate_child name _ | .mark_child_running name => some name
  | _ => none

/-- What an operation can do. -/
inductive Effect (s : Supervisor) : Op → Supervisor → Prop where
  | escalation (action : EscalationAction) :
      Effect s (.set_escalation_action action) { s with escalation_action := action }
  | taken (spec : ChildSpec) (id : ActorId) (present : (s.children.lookup spec.name).isSome) :
      Effect s (.start_child spec id) s
  | started (spec : ChildSpec) (id : ActorId) (free : s.children.lookup spec.name = none) :
      Effect s (.start_child spec id) { s with
        next_start_order := saturating_succ 32 s.next_start_order
        children := s.children.insert spec.name
          { id, spec, state := .Running, start_order := s.next_start_order } }
  | idle (op : Op) (name : String) (aims : target op = some name) : Effect s op s
  | state (op : Op) (name : String) (aims : target op = some name) (child : SupervisedChild)
      (found : s.children.lookup name = some child) (state : ChildState)
      (revives : state.is_active = true → child.state.is_active = true) (settled : ∀ attempt, state ≠ .Restarting attempt) :
      Effect s op { s with children := s.children.modify name (fun c => { c with state := state }) }
  | removed (name : String) : Effect s (.remove_child name) { s with children := s.children.erase name }
  | byHand (name : String) (write : SupervisedChild → SupervisedChild) :
      Effect s (.get_child_mut name write) { s with children := s.children.modify name write }
  | exit (name : String) (reason : ExitReason) (now : Readings) (mint : String → ActorId) (after : Supervisor)
      (outcome : Outcome s name reason now mint after) : Effect s (.handle_child_exit name reason now mint) after

theorem apply_effect (s : Supervisor) (op : Op) : Effect s op (s.apply op) := by
  cases op with
  | set_escalation_action action => exact .escalation action
  | get_child_mut name write => exact .byHand name write
  | handle_child_exit name reason now mint => exact .exit name reason now mint _ (exit_outcome s name reason now mint)
  | start_child spec id =>
    simp only [Supervisor.apply,Supervisor.start_child]
    split
    · next present => exact .taken spec id present
    · next free => exact .started spec id (by simpa using free)
  | remove_child name =>
    have erased : s.apply (.remove_child name) = { s with children := s.children.erase name } := by
      simp only [Supervisor.apply,Supervisor.remove_child]
      split
      · next absent => rw [Dict.erase_absent _ _ absent]
      · rfl
    rw [erased]
    exact .removed name
  | stop_child name =>
    simp only [Supervisor.apply,Supervisor.stop_child]
    split
    · exact .idle _ name rfl
    · next child found =>
      split
      · exact .state _ name rfl child found _ (by simp [ChildState.is_active]) (by simp)
      · exact .state _ name rfl child found _ (by simp [ChildState.is_active]) (by simp)
      · exact .idle _ name rfl
      · exact .idle _ name rfl
  | terminate_child name reason =>
    simp only [Supervisor.apply,Supervisor.terminate_child]
    split
    · exact .idle _ name rfl
    · next child found => exact .state _ name rfl child found _ (by simp [ChildState.is_active]) (by simp)
  | mark_child_running name =>
    simp only [Supervisor.apply,Supervisor.mark_child_running]
    split
    · exact .idle _ name rfl
    · next child found =>
      split
      · next up => exact .state _ name rfl child found _ (by simp [ChildState.is_active,up]) (by simp)
      · next up => exact .state _ name rfl child found _ (by simp [ChildState.is_active,up]) (by simp)
      · exact .idle _ name rfl
      · exact .idle _ name rfl

/-- Only an exit touches the logs and the restart counter. -/
theorem quiet_apply (s : Supervisor) (op : Op) (quiet : isExit op = false) :
    (s.apply op).restart_counts = s.restart_counts ∧ (s.apply op).total_restarts = s.total_restarts ∧
      (s.apply op).strategy = s.strategy ∧ (s.apply op).id = s.id ∧ (s.apply op).parent = s.parent := by
  have effect := apply_effect s op
  generalize s.apply op = after at effect ⊢
  cases effect with
  | exit => cases quiet
  | _ => exact ⟨rfl,rfl,rfl,rfl,rfl⟩

/-- No operation changes the strategy, the id or the parent. -/
theorem apply_frame (s : Supervisor) (op : Op) :
    (s.apply op).strategy = s.strategy ∧ (s.apply op).id = s.id ∧ (s.apply op).parent = s.parent := by
  have effect := apply_effect s op
  generalize s.apply op = after at effect ⊢
  cases effect with
  | exit name reason now mint _ outcome => cases outcome <;> exact ⟨rfl,rfl,rfl⟩
  | _ => exact ⟨rfl,rfl,rfl⟩

end ActorKit.Exits
