import ActorKit.GroupRestarts
import ActorKit.SupervisorSpec

/-!
# The supervisor refines its Quint model

Under `OneForOne` with permanent children, and as long as no restart ages out of
the window, every exit of a running child is a `crash` of the model and every
`mark_child_running` of a restarting child a `resume`. The model's invariants then
hold of the code.
-/

namespace ActorKit.SpecRefinement
open ActorKit.supervisor ActorKit.Window ActorKit.Exits ActorKit.RestartLog ActorKit.GroupRestarts

/-- A supervisor with its children started. -/
def supervised (id : ActorId) (parent : Option ActorId) (action : EscalationAction) (r : UInt32) (w : Duration)
    (specs : List (ChildSpec × ActorId)) : Supervisor :=
  (started id (.OneForOne r w) parent specs).set_escalation_action action

/-- The lifecycle value a child state is mapped to. -/
def lifecycleOf : ChildState → quint.Lifecycle
  | .Running => .running
  | .Restarting _ => .restarting
  | .Stopped _ => .stopped
  | .Stopping => .stopping

/-- The child an operation stops through `handle_max_restarts_exceeded`. -/
def exceeds (s : Supervisor) : Op → List String
  | .handle_child_exit name reason now _ => match decision s name reason with
    | some (r,w) => if s.check_restart_allowed name r w now.check then [] else [name]
    | none => []
  | _ => []

/-- The children a run stops through `handle_max_restarts_exceeded`. -/
def exceededIn (s : Supervisor) : List Op → List String
  | [] => []
  | op :: ops => exceeds s op ++ exceededIn (s.apply op) ops

/-- The model state of a supervisor whose children `escalated` were stopped
    through `handle_max_restarts_exceeded`. -/
def look (names : List String) (s : Supervisor) (escalated : List String) : quint.State { name // name ∈ names } where
  state := fun c => match s.children.lookup c.1 with
    | some child => lifecycleOf child.state
    | none => .stopping
  restarts := fun c => (logOf s c.1).length
  escalated := fun c => c.1 ∈ escalated

/-- The model state after a run. -/
def view (names : List String) (s : Supervisor) (ops : List Op) : quint.State { name // name ∈ names } :=
  look names (s.run ops) (exceededIn s ops)

/-- Exits with an error of running children, and restarted children coming up. -/
def Enabled (s : Supervisor) : Op → Prop
  | .handle_child_exit name (.Error _) _ _ => ∃ child, s.children.lookup name = some child ∧ child.state = .Running
  | .mark_child_running name => ∃ child attempt, s.children.lookup name = some child ∧ child.state = .Restarting attempt
  | _ => False

/-- All clock readings of the run lie within less than `w` of each other. -/
def Close (w : Duration) (ops : List Op) : Prop :=
  ∀ t ∈ ops.flatMap Op.readings, ∀ u ∈ ops.flatMap Op.readings, t - u < w

theorem exceededIn_snoc (s : Supervisor) (ops : List Op) (op : Op) :
    exceededIn s (ops ++ [op]) = exceededIn s ops ++ exceeds (s.run ops) op := by
  induction ops generalizing s with
  | nil => simp [exceededIn,Supervisor.run]
  | cons first ops ih => simp [exceededIn,ih,Supervisor.run]

/-- What the steps of such a run keep; `times` are the readings of the run. -/
structure Tidy (r : UInt32) (w : Duration) (names : List String) (times : List Instant) (s : Supervisor) : Prop where
  strategy : s.strategy = .OneForOne r w
  children : ∀ name, name ∈ names ↔ (s.children.lookup name).isSome
  permanent : ∀ name child, s.children.lookup name = some child → child.spec.restart_policy = .Permanent
  logged : ∀ name, ∀ t ∈ logOf s name, t ∈ times
  budget : ∀ name, (logOf s name).length ≤ r.toNat

section
variable {r : UInt32} {w : Duration} {names : List String} {times : List Instant} {s : Supervisor}

theorem Tidy.limited (tidy : Tidy r w names times s) : limits s.strategy = some (r,w) := by
  rw [tidy.strategy]
  rfl

/-- Writing the state of one child. -/
theorem Tidy.written (tidy : Tidy r w names times s) (name : String) (f : SupervisedChild → SupervisedChild)
    (spec : ∀ child, (f child).spec = child.spec) :
    Tidy r w names times { s with children := s.children.modify name f } where
  strategy := tidy.strategy
  children := by
    intro key
    rw [tidy.children key,Dict.lookup_modify]
    split <;> simp
  permanent := by
    intro key child found
    rw [Dict.lookup_modify] at found
    split at found
    · obtain ⟨old,at_,rfl⟩ := Option.map_eq_some_iff.mp found
      rw [spec]
      exact tidy.permanent key old at_
    · exact tidy.permanent key child found
  logged := tidy.logged
  budget := tidy.budget

/-- As long as no timestamp ages out, a log is pruned of nothing. -/
theorem recent_all {now : Instant} {log : List Instant} (young : ∀ t ∈ log, now - t < w) : recent now w log = log :=
  List.filter_eq_self.mpr (fun t member => by simpa using young t member)

/-- The check compares the whole log with the budget. -/
theorem Tidy.check (tidy : Tidy r w names times s) (positive : 1 ≤ r) {now : Instant}
    (young : ∀ t ∈ times, now - t < w) (name : String) :
    s.check_restart_allowed name r w now = true ↔ (logOf s name).length < r.toNat := by
  have all : recent now w (logOf s name) = logOf s name :=
    recent_all (fun t member => young t (tidy.logged name t member))
  have width := r.toNat_lt
  have budget := tidy.budget name
  have some : r ≠ 0 := by
    rintro rfl
    exact absurd positive (by decide)
  rw [check_iff (by rw [all]; omega),all]
  simp [some]

/-- A granted restart of a tidy supervisor. -/
theorem Tidy.restarted (tidy : Tidy r w names times s) {name : String} {now : Instant} (taken : now ∈ times)
    (young : ∀ t ∈ times, now - t < w) (room : (logOf s name).length < r.toNat) (mint : String → ActorId) :
    Tidy r w names times (restarted s name now mint) ∧
      ∀ key, logOf (Exits.restarted s name now mint) key =
        if key = name then logOf s name ++ [now] else logOf s key := by
  have log : ∀ key, logOf (Exits.restarted s name now mint) key =
      if key = name then logOf s name ++ [now] else logOf s key := by
    intro key
    show logOf (s.charge name now) key = _
    rw [charge_log tidy.limited,recent_all]
    intro t member
    rcases List.mem_append.mp member with old | new
    · exact young t (tidy.logged name t old)
    · rw [List.mem_singleton.mp new]
      exact young now taken
  refine ⟨{ strategy := tidy.strategy, children := ?_, permanent := ?_, logged := ?_, budget := ?_ },log⟩
  · intro key
    rw [tidy.children key,lookup_restarted]
    simp
  · intro key child found
    rw [lookup_restarted] at found
    obtain ⟨old,at_,same⟩ := Option.map_eq_some_iff.mp found
    have spec : child.spec = old.spec := by
      rw [← same]
      split <;> rfl
    rw [spec]
    exact tidy.permanent key old at_
  · intro key t member
    rw [log key] at member
    split at member
    · rcases List.mem_append.mp member with old | new
      · exact tidy.logged name t old
      · rw [List.mem_singleton.mp new]
        exact taken
    · exact tidy.logged key t member
  · intro key
    rw [log key]
    split
    · rw [List.length_append,List.length_singleton]
      omega
    · exact tidy.budget key

/-- The model sees the state of one child change. -/
theorem look_state {s' : Supervisor} {escalated escalated' : List String} {name : String} (named : name ∈ names)
    {value : quint.Lifecycle} (here : ∃ child, s'.children.lookup name = some child ∧ lifecycleOf child.state = value)
    (others : ∀ key, key ≠ name → s'.children.lookup key = s.children.lookup key) :
    (look names s' escalated').state = Function.update (look names s escalated).state ⟨name,named⟩ value := by
  funext c
  by_cases same : c = ⟨name,named⟩
  · subst same
    obtain ⟨child,found,rfl⟩ := here
    simp [look,found]
  · have apart : c.1 ≠ name := fun equal => same (Subtype.ext equal)
    rw [Function.update_of_ne same]
    simp only [look,others c.1 apart]

/-- A step of the code is a step of the model. -/
theorem step_refines (tidy : Tidy r w names times s) (positive : 1 ≤ r) {op : Op} (enabled : Enabled s op)
    (readings : ∀ t ∈ op.readings, t ∈ times ∧ ∀ u ∈ times, t - u < w) (escalated : List String) :
    Tidy r w names times (s.apply op) ∧
      ∃ a, quint.step r.toNat (look names s escalated) a =
        some (look names (s.apply op) (escalated ++ exceeds s op)) := by
  match op,enabled,readings with
  | .handle_child_exit name (.Error text) now mint,⟨child,found,running⟩,readings =>
    have named : name ∈ names := (tidy.children name).mpr (by rw [found]; rfl)
    have reached : decision s name (.Error text) = some (r,w) := by
      rw [decision,found]
      simp only [tidy.permanent name child found,Supervisor.should_restart,if_true,tidy.limited]
    have check := tidy.check positive (readings now.check (by simp [Op.readings])).2 name
    have up : (look names s escalated).state ⟨name,named⟩ = .running := by
      simp [look,found,running,lifecycleOf]
    have outcome := exit_outcome s name (.Error text) now mint
    simp only [Supervisor.apply]
    generalize (s.handle_child_exit name (.Error text) now mint).1 = after at outcome ⊢
    cases outcome with
    | undecided none => rw [reached] at none; cases none
    | refused r' w' reason reached' full =>
      rw [reached] at reached'
      cases reached'
      have spent : ¬ (look names s escalated).restarts ⟨name,named⟩ < r.toNat := by
        show ¬ (logOf s name).length < r.toNat
        rw [← check,full]
        decide
      have here : ∃ child', (stopped s name reason).children.lookup name = some child' ∧
          lifecycleOf child'.state = .stopped :=
        ⟨{ child with state := .Stopped reason },by rw [lookup_stopped,if_pos rfl,found]; rfl,rfl⟩
      refine ⟨tidy.written name _ (fun _ => rfl),.crash ⟨name,named⟩,?_⟩
      simp only [quint.step,quint.crash,spent,if_false,up,if_true,Option.some.injEq]
      refine quint.State.ext ?_ rfl ?_
      · refine (look_state named here ?_).symm
        intro key apart
        rw [lookup_stopped,if_neg apart]
      · funext c
        by_cases same : c = ⟨name,named⟩
        · subst same
          simp [look,exceeds,reached,full]
        · have apart : c.1 ≠ name := fun equal => same (Subtype.ext equal)
          simp [look,exceeds,reached,full,same,apart]
    | granted r' w' reached' allowed =>
      rw [reached] at reached'
      cases reached'
      have room : (look names s escalated).restarts ⟨name,named⟩ < r.toNat := check.mp allowed
      have recorded := readings now.record (by simp [Op.readings])
      obtain ⟨tidy',log⟩ := tidy.restarted recorded.1 recorded.2 (show (logOf s name).length < r.toNat from room) mint
      have self : moves s name name child = true := moves_self found (by rw [tidy.limited]; simp)
      have here : ∃ child', (restarted s name now.record mint).children.lookup name = some child' ∧
          lifecycleOf child'.state = .restarting := by
        rw [lookup_restarted,found,Option.map_some,if_pos self]
        exact ⟨_,rfl,rfl⟩
      refine ⟨tidy',.crash ⟨name,named⟩,?_⟩
      simp only [quint.step,quint.crash,room,if_true,up,Option.some.injEq]
      refine quint.State.ext ?_ ?_ ?_
      · refine (look_state named here ?_).symm
        intro key apart
        have still : ∀ other, moves s name key other = false := by
          intro other
          simp [moves,tidy.strategy,apart]
        rw [lookup_restarted]
        simp [still]
      · funext c
        by_cases same : c = ⟨name,named⟩
        · subst same
          simp [look,log]
        · have apart : c.1 ≠ name := fun equal => same (Subtype.ext equal)
          simp [look,log,same,apart]
      · funext c
        simp [look,exceeds,reached,allowed]
  | .mark_child_running name,⟨child,attempt,found,restarting⟩,_ =>
    have named : name ∈ names := (tidy.children name).mpr (by rw [found]; rfl)
    have down : (look names s escalated).state ⟨name,named⟩ = .restarting := by
      simp [look,found,restarting,lifecycleOf]
    have marked : s.apply (.mark_child_running name) =
        { s with children := s.children.modify name (fun c => { c with state := .Running }) } := by
      simp only [Supervisor.apply,Supervisor.mark_child_running,found,restarting]
    rw [marked]
    refine ⟨tidy.written name _ (fun _ => rfl),.resume ⟨name,named⟩,?_⟩
    simp only [quint.step,quint.resume,down,if_true,Option.some.injEq]
    refine quint.State.ext ?_ rfl ?_
    · refine (look_state named ⟨{ child with state := .Running },by simp [found],rfl⟩ ?_).symm
      intro key apart
      simp [apart]
    · funext c
      simp [look,exceeds]

/-! ## Runs -/

/-- All children of a supervisor are up and nothing was restarted yet. -/
structure Up (r : UInt32) (w : Duration) (names : List String) (s : Supervisor) : Prop where
  strategy : s.strategy = .OneForOne r w
  children : ∀ name, name ∈ names ↔ (s.children.lookup name).isSome
  fresh : ∀ name child, s.children.lookup name = some child →
    child.spec.restart_policy = .Permanent ∧ child.state = .Running
  unlogged : s.restart_counts = ∅

theorem Up.started (up : Up r w names s) {spec : ChildSpec} (permanent : spec.restart_policy = .Permanent)
    (id : ActorId) : Up r w (names ++ [spec.name]) (s.apply (.start_child spec id)) := by
  simp only [Supervisor.apply,Supervisor.start_child]
  split
  · next present =>
    refine { up with children := fun name => ?_ }
    rw [List.mem_append,List.mem_singleton,← up.children]
    constructor
    · rintro (old | rfl)
      · exact old
      · exact (up.children _).mpr present
    · exact .inl
  · refine ⟨up.strategy,fun name => ?_,fun name child found => ?_,up.unlogged⟩
    · rw [List.mem_append,List.mem_singleton,up.children,Dict.lookup_insert_ite]
      by_cases same : name = spec.name
      · simp [same]
      · simp [same]
    · rw [Dict.lookup_insert_ite] at found
      split at found
      · cases found
        exact ⟨permanent,rfl⟩
      · exact up.fresh name child found

theorem Up.all_started (specs : List (ChildSpec × ActorId))
    (permanent : ∀ spec ∈ specs, spec.1.restart_policy = .Permanent) {names : List String} {s : Supervisor}
    (up : Up r w names s) :
    Up r w (names ++ specs.map (·.1.name)) (s.run (specs.map (fun c => .start_child c.1 c.2))) := by
  induction specs generalizing names s with
  | nil => simpa [Supervisor.run] using up
  | cons spec specs ih =>
    have first := up.started (permanent spec List.mem_cons_self) spec.2
    have rest := ih (fun other member => permanent other (List.mem_cons_of_mem _ member)) first
    simpa [Supervisor.run] using rest

theorem supervised_up (id : ActorId) (parent : Option ActorId) (action : EscalationAction) (r : UInt32) (w : Duration)
    {specs : List (ChildSpec × ActorId)} (permanent : ∀ spec ∈ specs, spec.1.restart_policy = .Permanent) :
    Up r w (specs.map (·.1.name)) (supervised id parent action r w specs) := by
  have empty : Up r w [] (created id (.OneForOne r w) parent) := by
    cases parent <;> exact ⟨rfl,fun name => by simp [created,Supervisor.new,Supervisor.with_parent],
      fun name child found => by simp [created,Supervisor.new,Supervisor.with_parent] at found,rfl⟩
  have up := empty.all_started specs permanent
  exact { strategy := up.strategy, children := up.children, fresh := up.fresh, unlogged := up.unlogged }

theorem Up.tidy (up : Up r w names s) (times : List Instant) : Tidy r w names times s where
  strategy := up.strategy
  children := up.children
  permanent := fun name child found => (up.fresh name child found).1
  logged := fun name t member => by simp [logOf,up.unlogged] at member
  budget := fun name => by simp [logOf,up.unlogged]

/-- The model starts where the supervisor starts. -/
theorem Up.view (up : Up r w names s) : view names s [] = quint.init := by
  refine quint.State.ext ?_ ?_ ?_
  · funext c
    obtain ⟨child,found⟩ := Option.isSome_iff_exists.mp ((up.children c.1).mp c.2)
    have running := (up.fresh c.1 child found).2
    simp [SpecRefinement.view,look,Supervisor.run,found,running,lifecycleOf,quint.init]
  · funext c
    simp [SpecRefinement.view,look,Supervisor.run,logOf,up.unlogged,quint.init]
  · funext c
    simp [SpecRefinement.view,look,exceededIn,quint.init]

/-- One more operation of a run. -/
theorem view_snoc (names : List String) (s : Supervisor) (ops : List Op) (op : Op) :
    view names s (ops ++ [op]) =
      look names ((s.run ops).apply op) (exceededIn s ops ++ exceeds (s.run ops) op) := by
  rw [view,exceededIn_snoc,run_append]
  rfl

/-- Every step of an enabled run with close readings is a step of the model. -/
theorem run_refines (up : Up r w names s) (positive : 1 ≤ r) {ops : List Op}
    (enabled : ∀ before op, before ++ [op] <+: ops → Enabled (s.run before) op) (close : Close w ops)
    (before : List Op) (part : before <+: ops) :
    Tidy r w names (ops.flatMap Op.readings) (s.run before) ∧
      Transition.Reachable (quint.step r.toNat) quint.init (view names s before) ∧
      ∀ op, before ++ [op] <+: ops →
        ∃ a, quint.step r.toNat (view names s before) a = some (view names s (before ++ [op])) := by
  have steps : ∀ before op, before ++ [op] <+: ops → Tidy r w names (ops.flatMap Op.readings) (s.run before) →
      Tidy r w names (ops.flatMap Op.readings) (s.run (before ++ [op])) ∧
        ∃ a, quint.step r.toNat (view names s before) a = some (view names s (before ++ [op])) := by
    intro before op part tidy
    have readings : ∀ t ∈ op.readings,
        t ∈ ops.flatMap Op.readings ∧ ∀ u ∈ ops.flatMap Op.readings, t - u < w := by
      intro t member
      have taken : t ∈ ops.flatMap Op.readings :=
        List.mem_flatMap.mpr ⟨op,part.subset (by simp),member⟩
      exact ⟨taken,close t taken⟩
    rw [view_snoc,run_append]
    exact step_refines tidy positive (enabled before op part) readings (exceededIn s before)
  have reached : Tidy r w names (ops.flatMap Op.readings) (s.run before) ∧
      Transition.Reachable (quint.step r.toNat) quint.init (view names s before) := by
    -- The run is followed operation by operation, from its beginning.
    induction before using List.reverseRecOn with
    | nil => exact ⟨up.tidy _,by rw [up.view]; exact .start⟩
    | append_singleton before op ih =>
      obtain ⟨tidy,model⟩ := ih ((List.prefix_append before [op]).trans part)
      obtain ⟨tidy',a,stepped⟩ := steps before op part tidy
      exact ⟨tidy',.next model trivial stepped⟩
  exact ⟨reached.1,reached.2,fun op next => (steps before op next reached.1).2⟩

end

/-- The supervisor refines the Quint model: it starts in the initial state, every
    step is a step of the model, and the model's invariants hold throughout. -/
theorem supervisor_refines_model (id : ActorId) (parent : Option ActorId) (action : EscalationAction) (r : UInt32)
    (w : Duration) (specs : List (ChildSpec × ActorId))
    (permanent : ∀ spec ∈ specs, spec.1.restart_policy = .Permanent) (positive : 1 ≤ r) (ops : List Op)
    (enabled : ∀ before op, before ++ [op] <+: ops → Enabled ((supervised id parent action r w specs).run before) op)
    (close : Close w ops) :
    view (specs.map (·.1.name)) (supervised id parent action r w specs) [] = quint.init ∧
    ∀ before, before <+: ops →
      quint.AllInvariants r.toNat (view (specs.map (·.1.name)) (supervised id parent action r w specs) before) ∧
      ∀ op, before ++ [op] <+: ops →
        ∃ a, quint.step r.toNat (view (specs.map (·.1.name)) (supervised id parent action r w specs) before) a =
          some (view (specs.map (·.1.name)) (supervised id parent action r w specs) (before ++ [op])) := by
  have up := supervised_up id parent action r w permanent
  refine ⟨up.view,fun before part => ?_⟩
  obtain ⟨-,reached,steps⟩ := run_refines up positive enabled close before part
  exact ⟨quint.all_invariants reached,steps⟩

/-- A worker that fails twice under a budget of one restart. -/
def failsTwice : List Op :=
  [.handle_child_exit "worker" (.Error "first") ⟨0,1⟩ (fun _ => ⟨2⟩),.mark_child_running "worker",
    .handle_child_exit "worker" (.Error "second") ⟨2,2⟩ (fun _ => ⟨3⟩)]

theorem supervisor_refines_model_escalation :
    (view ["worker"] (supervised ⟨0⟩ none .Escalate 1 60 [({ name := "worker" },⟨1⟩)]) failsTwice).escalated
      ⟨"worker",by decide⟩ = true ∧
    ∀ before, before <+: failsTwice →
      quint.AllInvariants 1 (view ["worker"] (supervised ⟨0⟩ none .Escalate 1 60 [({ name := "worker" },⟨1⟩)]) before) := by
  have close : Close 60 failsTwice := by
    unfold Close
    decide
  have enabled : ∀ before op, before ++ [op] <+: failsTwice →
      Enabled ((supervised ⟨0⟩ none .Escalate 1 60 [({ name := "worker" },⟨1⟩)]).run before) op := by
    intro before op part
    obtain ⟨rest,same⟩ := part
    rcases before with _ | ⟨first,_ | ⟨second,_ | ⟨third,before⟩⟩⟩
    · cases same
      exact ⟨_,rfl,rfl⟩
    · cases same
      exact ⟨_,_,rfl,rfl⟩
    · cases same
      exact ⟨_,rfl,rfl⟩
    · simp [failsTwice] at same
  have refines := supervisor_refines_model ⟨0⟩ none .Escalate 1 60 [({ name := "worker" },⟨1⟩)] (by decide) (by decide)
    failsTwice enabled close
  exact ⟨by decide +kernel,fun before part => (refines.2 before part).1⟩

end ActorKit.SpecRefinement
