import ActorKit.RestartLog

/-!
# Child lifecycles

When a stopped child stays stopped. `mark_child_running` refuses one, but a
granted restart writes `Restarting` into every child it moves without looking
at its state; a run keeps lifecycles one-way exactly when no granted restart
finds a stopped child among those.
-/

namespace ActorKit.Lifecycle
open ActorKit.supervisor ActorKit.Exits ActorKit.RestartLog

/-- The child is supervised and stopping or stopped. -/
def inactive (s : Supervisor) (name : String) : Bool :=
  match s.children.lookup name with
  | some child => !child.state.is_active
  | none => false

/-- Once a child is stopping or stopped it stays so for as long as it is
    supervised; a child started again under a removed name is a new one. -/
def OneWay (s : Supervisor) (ops : List Op) : Prop :=
  ∀ before during, before ++ during <+: ops → ∀ name, inactive (s.run before) name = true →
    (∀ part, part <+: during → ((s.run (before ++ part)).children.lookup name).isSome) →
    inactive (s.run (before ++ during)) name = true

/-- Whether an operation writes a child by hand. -/
def byHand : Op → Bool
  | .get_child_mut .. => true
  | _ => false

/-- No state is written by hand through `get_child_mut`. -/
def HandsOff (ops : List Op) : Prop := ∀ op ∈ ops, byHand op = false

/-- A restart that would be granted moves active children only. -/
def MovesActive (s : Supervisor) : Op → Prop
  | .handle_child_exit name reason now _ =>
    ∀ r w, decision s name reason = some (r,w) → s.check_restart_allowed name r w now.check = true →
      ∀ key child, s.children.lookup key = some child → moves s name key child = true → child.state.is_active = true
  | _ => True

/-- Every step of the run meets the condition in the state before it. -/
def AllMoveActive (s : Supervisor) : List Op → Prop
  | [] => True
  | op :: ops => MovesActive s op ∧ AllMoveActive (s.apply op) ops

theorem inactive_iff (s : Supervisor) (name : String) :
    inactive s name = true ↔ ∃ child, s.children.lookup name = some child ∧ child.state.is_active = false := by
  unfold inactive
  cases s.children.lookup name <;> simp

/-- Writing one state leaves a child inactive unless it makes that child active. -/
theorem inactive_write {s : Supervisor} {name other : String} (state : ChildState) (down : inactive s name = true)
    (idle : name = other → state.is_active = false) :
    inactive { s with children := s.children.modify other (fun c => { c with state := state }) } name = true := by
  obtain ⟨child,found,before⟩ := (inactive_iff s name).mp down
  rw [inactive_iff]
  by_cases same : name = other
  · exact ⟨{ child with state := state },by simp [← same,found],idle same⟩
  · exact ⟨child,by simp [same,found],before⟩

/-- An operation other than an exit never makes an inactive child active. -/
theorem quiet_keeps {s : Supervisor} {op : Op} (quiet : isExit op = false) (handsOff : byHand op = false)
    {name : String} (down : inactive s name = true) (present : ((s.apply op).children.lookup name).isSome) :
    inactive (s.apply op) name = true := by
  obtain ⟨child,found,idle⟩ := (inactive_iff s name).mp down
  have effect := apply_effect s op
  generalize s.apply op = after at effect present ⊢
  cases effect with
  | exit => cases quiet
  | byHand => cases handsOff
  | escalation | taken | idle => exact down
  | started spec id free =>
    have different : name ≠ spec.name := by
      rintro rfl
      rw [found] at free
      cases free
    rw [inactive_iff]
    exact ⟨child,by simpa [Dict.lookup_insert_ite,different] using found,idle⟩
  | removed other =>
    have different : name ≠ other := by
      rintro rfl
      simp at present
    rw [inactive_iff]
    exact ⟨child,by simpa [Dict.lookup_erase_ite,different] using found,idle⟩
  | state _ other _ marked listed state revives =>
    -- A state that is active is given to active children only, so not to the inactive one.
    refine inactive_write _ down ?_
    rintro rfl
    rw [found] at listed
    cases listed
    by_contra up
    rw [revives (by simpa using up)] at idle
    cases idle

/-- An exit keeps an inactive child inactive when its restart moves only active
    children. -/
theorem exit_keeps {s : Supervisor} {name : String} {reason : ExitReason} {now : Readings} {mint : String → ActorId}
    (active : MovesActive s (.handle_child_exit name reason now mint)) {key : String} (down : inactive s key = true) :
    inactive (s.handle_child_exit name reason now mint).1 key = true := by
  have outcome := exit_outcome s name reason now mint
  generalize (s.handle_child_exit name reason now mint).1 = after at outcome ⊢
  cases outcome with
  | undecided | refused => exact inactive_write _ down (fun _ => rfl)
  | granted r w reached allowed =>
    obtain ⟨child,found,idle⟩ := (inactive_iff s key).mp down
    have unmoved : moves s name key child = false := by
      by_contra moved
      have up := active r w reached allowed key child found (by simpa using moved)
      rw [idle] at up
      cases up
    rw [inactive_iff]
    exact ⟨child,by simp [found,unmoved],idle⟩

/-- A granted restart that moves an inactive child makes it active. -/
theorem exit_breaks {s : Supervisor} {op : Op} (bad : ¬ MovesActive s op) :
    ∃ name, inactive s name = true ∧ ((s.apply op).children.lookup name).isSome ∧ inactive (s.apply op) name = false := by
  cases op with
  | handle_child_exit name reason now mint =>
    simp only [MovesActive,not_forall] at bad
    obtain ⟨r,w,reached,allowed,key,child,found,moved,idle⟩ := bad
    refine ⟨key,(inactive_iff s key).mpr ⟨child,found,by simpa using idle⟩,?_⟩
    simp only [Supervisor.apply,exit_restarts mint reached allowed]
    simp [inactive,found,moved,ChildState.is_active]
  | _ => exact absurd trivial bad

/-- A safe step keeps an inactive child inactive while it is supervised. -/
theorem step_keeps {s : Supervisor} {op : Op} (handsOff : byHand op = false) (active : MovesActive s op)
    {name : String} (down : inactive s name = true) (present : ((s.apply op).children.lookup name).isSome) :
    inactive (s.apply op) name = true := by
  cases exit : isExit op with
  | false => exact quiet_keeps exit handsOff down present
  | true =>
    cases op with
    | handle_child_exit => exact exit_keeps active down
    | _ => cases exit

theorem oneWay_of_movesActive {s : Supervisor} {ops : List Op} (handsOff : HandsOff ops)
    (active : AllMoveActive s ops) {name : String} (down : inactive s name = true)
    (present : ∀ part, part <+: ops → ((s.run part).children.lookup name).isSome) :
    inactive (s.run ops) name = true := by
  induction ops generalizing s with
  | nil => exact down
  | cons op ops ih =>
    have first := step_keeps (handsOff op List.mem_cons_self) active.1 down
      (present [op] (List.cons_prefix_cons.mpr ⟨rfl,List.nil_prefix⟩))
    exact ih (fun op member => handsOff op (List.mem_cons_of_mem _ member)) active.2 first
      (fun part short => present (op :: part) (List.cons_prefix_cons.mpr ⟨rfl,short⟩))

theorem allMoveActive_append {s : Supervisor} {ops more : List Op} (active : AllMoveActive s (ops ++ more)) :
    AllMoveActive (s.run ops) more := by
  induction ops generalizing s with
  | nil => exact active
  | cons op ops ih => exact ih active.2

theorem allMoveActive_shorter {s : Supervisor} {ops more : List Op} (short : ops <+: more)
    (active : AllMoveActive s more) : AllMoveActive s ops := by
  induction ops generalizing s more with
  | nil => trivial
  | cons op ops ih =>
    obtain ⟨rest,rfl⟩ := short
    exact ⟨active.1,ih ⟨rest,rfl⟩ active.2⟩

/-- Lifecycles are one-way over a run exactly when every granted restart of the
    run moves active children only. -/
theorem lifecycle_one_way_iff (s : Supervisor) (ops : List Op) (handsOff : HandsOff ops) :
    OneWay s ops ↔ AllMoveActive s ops := by
  constructor
  · intro oneWay
    induction ops generalizing s with
    | nil => trivial
    | cons op ops ih =>
      constructor
      · by_contra bad
        obtain ⟨name,down,present,up⟩ := exit_breaks bad
        have stays := oneWay [] [op] (List.cons_prefix_cons.mpr ⟨rfl,List.nil_prefix⟩) name down (by
          intro part short
          rcases List.prefix_cons_iff.mp short with rfl | ⟨rest,rfl,nothing⟩
          · obtain ⟨child,found,-⟩ := (inactive_iff s name).mp down
            show (s.children.lookup name).isSome
            rw [found]; rfl
          · rw [List.prefix_nil.mp nothing]
            exact present)
        rw [show s.run ([] ++ [op]) = s.apply op from rfl,up] at stays
        cases stays
      · refine ih (s.apply op) (fun op member => handsOff op (List.mem_cons_of_mem _ member)) ?_
        intro before during short name down present
        exact oneWay (op :: before) during (List.cons_prefix_cons.mpr ⟨rfl,short⟩) name down present
  · intro active before during short name down present
    rw [run_append]
    obtain ⟨rest,split⟩ := short
    have within : HandsOff during := by
      intro op member
      exact handsOff op (by rw [← split]; simp [member])
    refine oneWay_of_movesActive within (allMoveActive_append (allMoveActive_shorter ⟨rest,split⟩ active)) down ?_
    intro part shorter
    rw [← run_append]
    exact present part shorter

/-- The first restart of a running child keeps its lifecycle one-way. -/
theorem lifecycle_one_way_restarted : OneWay (created ⟨0⟩ (.OneForOne 1 10) none) restartedOnce := by
  refine (lifecycle_one_way_iff _ restartedOnce (by unfold HandsOff; decide)).mpr ⟨trivial,?_,trivial⟩
  intro r w _ _ key child found moved
  obtain rfl : key = "worker" := of_decide_eq_true moved
  cases found
  rfl

/-- A child that is restarted once, comes back, exceeds its limit of one restart
    at reading 1 and has its exit reported again at reading 20. -/
def reportedTwice : List Op :=
  restartedOnce ++ [.mark_child_running "worker",.handle_child_exit "worker" .Killed ⟨1,1⟩ (fun _ => ⟨3⟩),
    .handle_child_exit "worker" .Killed ⟨20,20⟩ (fun _ => ⟨4⟩)]

/-- A child stopped by `handle_max_restarts_exceeded` restarts when its exit is
    reported a second time after the window. -/
theorem lifecycle_not_one_way : ¬ ∀ (id : ActorId) (parent : Option ActorId) (strategy : SupervisionStrategy)
    (ops : List Op), NonDecreasing ops → HandsOff ops → OneWay (created id strategy parent) ops := by
  intro always
  have oneWay := always ⟨0⟩ none (.OneForOne 1 10) reportedTwice (by unfold NonDecreasing; decide)
    (by unfold HandsOff; decide)
  have stays := oneWay (reportedTwice.take 4) (reportedTwice.drop 4) ⟨[],by rw [List.append_nil,List.take_append_drop]⟩ "worker" (by decide)
    (by
      intro part short
      rcases List.prefix_cons_iff.mp short with rfl | ⟨rest,rfl,nothing⟩
      · decide
      · rw [List.prefix_nil.mp nothing]; decide)
  revert stays
  decide

end ActorKit.Lifecycle
